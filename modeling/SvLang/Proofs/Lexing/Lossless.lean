import SvLang.Proofs.Lexing.Slice
import SvLang.Proofs.Lexing.Tokens

/-!
# Nothing of a source is lost

When a source is read, its tokens and the blanks and comments between them are the whole of it:
`tokenize_lossless`.  What that means is said in bytes of the source alone, without a word about how
it is read.

## What is here

* `Token.ReadFrom`: the token stands in the source where its span says, with the text and the kind
  of what is written there, and nothing longer could be read at that place.
* `Lossless`: all tokens stand in the source in their order, between them are blanks and comments,
  and behind them is the end.
* `Writes.split` takes a text that writes tokens apart at any of them; everything else follows from
  it.
-/

set_option autoImplicit false

namespace SvLang

/-! ## Where a token stands -/

namespace Token

/-- The byte of the source at which the token starts. -/
def start (t : Token) : Nat := t.span.start.toNat

/-- The byte of the source behind the token. -/
def stop (t : Token) : Nat := t.span.stop.toNat

theorem start_endOfFile {size : Nat} (h : size < UInt32.size) : (endOfFile size).start = size :=
  UInt32.toNat_ofNat_of_lt' h

theorem stop_endOfFile {size : Nat} (h : size < UInt32.size) : (endOfFile size).stop = size :=
  UInt32.toNat_ofNat_of_lt' h

/-- The token is what stands at its place in the source. -/
structure ReadFrom (source : String) (t : Token) : Prop where
  /-- The token takes some bytes. -/
  start_lt_stop : t.start < t.stop
  /-- They lie in the source. -/
  stop_le : t.stop ≤ source.utf8ByteSize
  /-- They start between two characters. -/
  isBoundary_start : IsBoundary source t.start
  /-- They end between two characters. -/
  isBoundary_stop : IsBoundary source t.stop
  /-- The kind is that of what is written there. -/
  lexical_iff : ∀ kind, Lexical kind (slice source t.start t.stop).toList ↔ kind = t.kind
  /-- A token that is no quoted text has all that is written there. -/
  text : (∀ q, t.kind ≠ .text q) → t.text = slice source t.start t.stop
  /-- A quoted text has what is written there between its two marks. -/
  quoted : ∀ q, t.kind = .text q → t.start + 1 ≤ t.stop - 1 ∧
    t.text = slice source (t.start + 1) (t.stop - 1) ∧ q.mark ∉ t.text.toList ∧
      slice source t.start (t.start + 1) = q.mark.toString ∧
        slice source (t.stop - 1) t.stop = q.mark.toString
  /-- Nothing longer is written there. -/
  longest : ∀ stop, t.stop < stop → IsBoundary source stop →
    ∀ kind, ¬ Lexical kind (slice source t.start stop).toList

end Token

/-- Where the last of the tokens stops, if what stands in front of them stops at `offset`. -/
def stopAfter (offset : Nat) : List Token → Nat
  | [] => offset
  | t :: ts => stopAfter t.stop ts

/-- The tokens are the whole of the source but for its blanks and comments. -/
structure Lossless (source : String) (ts : List Token) : Prop where
  /-- The last token, and no other, is the end of the source. -/
  ended : ∃ us eof, ts = us ++ [eof] ∧ (∀ t ∈ us, t.kind ≠ .eof) ∧ eof.kind = .eof ∧
    eof.text = "EndOfFile" ∧ eof.start = source.utf8ByteSize ∧ eof.stop = source.utf8ByteSize
  /-- Each of the other tokens stands in the source. -/
  read : ∀ t ∈ ts, t.kind ≠ .eof → t.ReadFrom source
  /-- The tokens follow one another. -/
  ordered : ts.Pairwise fun t u ↦ t.stop ≤ u.start
  /-- In front of a token are blanks and comments. -/
  trivia : ∀ before t after, ts = before ++ t :: after → t.kind ≠ .eof →
    Trivia (slice source (stopAfter 0 before) t.start).toList
  /-- So it is in front of the end, but a comment may lack the end of its line. -/
  closingTrivia : ∀ before t after, ts = before ++ t :: after → t.kind = .eof →
    ClosingTrivia (slice source (stopAfter 0 before) t.start).toList
  /-- These are all the bytes that belong to no token. -/
  uncovered : ∀ i, i < source.utf8ByteSize →
    ((∀ t ∈ ts, ¬ (t.start ≤ i ∧ i < t.stop)) ↔
      ∃ before t after, ts = before ++ t :: after ∧ stopAfter 0 before ≤ i ∧ i < t.start)

/-! ## One lexeme in a source -/

namespace Lexeme

theorem start_token {l : Lexeme} {start : Nat}
    (h : start + byteSize l.spelling < UInt32.size) : (l.token start).start = start :=
  UInt32.toNat_ofNat_of_lt' (Nat.lt_of_le_of_lt (Nat.le_add_right _ _) h)

theorem stop_token {l : Lexeme} {start : Nat}
    (h : start + byteSize l.spelling < UInt32.size) :
    (l.token start).stop = start + byteSize l.spelling :=
  UInt32.toNat_ofNat_of_lt' h

theorem byteSize_spelling_pos {l : Lexeme} (hl : l.WellFormed) : 0 < byteSize l.spelling := by
  obtain ⟨c, cs, hcs, -⟩ := scan_spelling hl l.endsBefore_nil
  rw [List.append_nil] at hcs
  exact byteSize_pos (by rw [hcs]; exact List.cons_ne_nil _ _)

theorem text_eq_spelling {l : Lexeme} (h : ∀ q, l.kind ≠ .text q) : l.text = l.spelling := by
  cases l with
  | quoted q content => exact absurd rfl (h q)
  | _ => rfl

variable {source : String} {before rest : List Char}

/-- The marks and the content of a quoted text in a source. -/
theorem slice_quoted {q : Quote} {content : List Char} {stop : Nat}
    (h : source.toList = before ++ ((quoted q content).spelling ++ rest))
    (hstop : stop = byteSize before + byteSize (quoted q content).spelling) :
    byteSize before + 1 ≤ stop - 1 ∧
      slice source (byteSize before + 1) (stop - 1) = String.ofList content ∧
        slice source (byteSize before) (byteSize before + 1) = q.mark.toString ∧
          slice source (stop - 1) stop = q.mark.toString := by
  have hmark : byteSize [q.mark] = 1 := by cases q <;> rfl
  have hfirst : byteSize (before ++ [q.mark]) = byteSize before + 1 := by
    rw [byteSize_append, hmark]
  rw [spelling, ← List.singleton_append, byteSize_append, byteSize_append, hmark] at hstop
  have hcontent : byteSize before + 1 + byteSize content = stop - 1 := by omega
  have hlast : byteSize (before ++ [q.mark] ++ content) = stop - 1 := by
    rw [byteSize_append, hfirst, hcontent]
  have hend : stop - 1 + 1 = stop := by omega
  -- The source in front of each of the three parts, the part, and what follows it.
  have hopening := slice_of_append (h.trans (by simp [spelling] : _ =
    before ++ ([q.mark] ++ (content ++ q.mark :: rest))))
  have hinner := slice_of_append (h.trans (by simp [spelling] : _ =
    before ++ [q.mark] ++ (content ++ q.mark :: rest)))
  have hclosing := slice_of_append (h.trans (by simp [spelling] : _ =
    before ++ [q.mark] ++ content ++ ([q.mark] ++ rest)))
  rw [hmark] at hopening
  rw [hfirst, hcontent] at hinner
  rw [hlast, hmark, hend] at hclosing
  exact ⟨by omega, hinner, hopening, hclosing⟩

/-- No lexeme at the same place is longer than one that ends where the text goes on. -/
theorem byteSize_le_of_lexical {l : Lexeme} (hl : l.WellFormed) (hrest : l.EndsBefore rest)
    {kind : TokenKind} {cs : List Char} (h : Lexical kind cs) (hfront : cs <+: l.spelling ++ rest) :
    byteSize cs ≤ byteSize l.spelling := by
  obtain ⟨l', hl', rfl, -⟩ := lexical_iff.1 h
  obtain ⟨c, cs, hcs, hscan⟩ := scan_spelling hl hrest
  have hlength : l'.spelling.length ≤ l.spelling.length :=
    length_le_of_scan_prefix hscan hl' (hcs ▸ hfront)
  exact byteSize_le_of_prefix
    (List.prefix_of_prefix_length_le hfront (List.prefix_append _ _) hlength)

/-- A lexeme that ends where the source goes on is read from it. -/
theorem readFrom_token {l : Lexeme} (h : source.toList = before ++ (l.spelling ++ rest))
    (hl : l.WellFormed) (hrest : l.EndsBefore rest) (hsize : source.utf8ByteSize < UInt32.size) :
    (l.token (byteSize before)).ReadFrom source := by
  have hbytes : source.utf8ByteSize = byteSize before + byteSize l.spelling + byteSize rest := by
    rw [← byteSize_toList, h, byteSize_append, byteSize_append, Nat.add_assoc]
  have hfits : byteSize before + byteSize l.spelling < UInt32.size := by omega
  have hstart := start_token hfits
  have hstop := stop_token hfits
  have hslice := slice_of_append h
  have hpos := byteSize_spelling_pos hl
  constructor
  case start_lt_stop => omega
  case stop_le => omega
  case isBoundary_start =>
    rw [hstart]
    exact isBoundary_of_append h
  case isBoundary_stop =>
    rw [hstop, ← byteSize_append]
    exact isBoundary_of_append (h.trans (List.append_assoc ..).symm)
  case lexical_iff =>
    intro kind
    rw [hstart, hstop, hslice, String.toList_ofList]
    exact hl.lexical_spelling_iff
  case text =>
    intro hkind
    rw [hstart, hstop, hslice, ← text_eq_spelling hkind]
    rfl
  case quoted =>
    intro q hkind
    obtain ⟨content, rfl⟩ := exists_of_kind_eq_text hkind
    obtain ⟨hle, hcontent, hmarks⟩ := slice_quoted h hstop
    have hmem : q.mark ∉ (String.ofList content).toList := by
      rw [String.toList_ofList]
      exact hl
    rw [hstart]
    exact ⟨hle, hcontent.symm, hmem, hmarks⟩
  case longest =>
    intro stop hlt hstop' kind hlexical
    obtain ⟨cs, hfront, rfl, hcs⟩ := exists_slice_of_isBoundary h hstop' (by omega)
    rw [hstart, hcs, String.toList_ofList] at hlexical
    have hle := byteSize_le_of_lexical hl hrest hlexical hfront
    omega

end Lexeme

/-! ## Tokens one after another -/

namespace Writes

variable {offset : Nat} {cs : List Char} {t : Token} {ts before after : List Token}

/-- The first token of a text is its end or comes from a lexeme. -/
theorem cases_cons (h : Writes offset cs (t :: ts)) :
    ClosingTrivia cs ∧ t = .endOfFile (offset + byteSize cs) ∧ ts = [] ∨
      ∃ (w : List Char) (l : Lexeme) (rest : List Char), cs = w ++ (l.spelling ++ rest) ∧
        Trivia w ∧ l.WellFormed ∧ l.EndsBefore rest ∧ t = l.token (offset + byteSize w) ∧
          Writes (offset + byteSize w + byteSize l.spelling) rest ts := by
  cases h with
  | eof _ hw => exact .inl ⟨hw, rfl, rfl⟩
  | cons _ hw hl hrest hts => exact .inr ⟨_, _, _, rfl, hw, hl, hrest, rfl, hts⟩

/-- A text can be taken apart in front of each token, where the token before it stops. -/
theorem split (h : Writes offset cs (before ++ t :: after))
    (hsize : offset + byteSize cs < UInt32.size) :
    ∃ front back, cs = front ++ back ∧ stopAfter offset before = offset + byteSize front ∧
      Writes (offset + byteSize front) back (t :: after) := by
  induction before generalizing offset cs with
  | nil => exact ⟨[], cs, rfl, rfl, h⟩
  | cons u before ih =>
    rcases h.cases_cons with ⟨-, -, hnil⟩ | ⟨w, l, rest, rfl, -, -, -, rfl, hts⟩
    · simp at hnil
    · rw [byteSize_append, byteSize_append] at hsize
      obtain ⟨front, back, rfl, hstop, hback⟩ := ih hts (by omega)
      have hfront : offset + byteSize (w ++ (l.spelling ++ front)) =
          offset + byteSize w + byteSize l.spelling + byteSize front := by
        rw [byteSize_append, byteSize_append]
        omega
      refine ⟨w ++ (l.spelling ++ front), back, by simp only [List.append_assoc], ?_, ?_⟩
      · rw [stopAfter, Lexeme.stop_token (by omega), hstop, hfront]
      · rw [hfront]
        exact hback

/-- No token starts before the text does, and none stops before it starts. -/
theorem bounds (h : Writes offset cs ts) (hsize : offset + byteSize cs < UInt32.size)
    (ht : t ∈ ts) : offset ≤ t.start ∧ t.start ≤ t.stop := by
  obtain ⟨before, after, rfl⟩ := List.append_of_mem ht
  obtain ⟨front, back, rfl, -, hback⟩ := h.split hsize
  rw [byteSize_append] at hsize
  rcases hback.cases_cons with ⟨-, rfl, -⟩ | ⟨w, l, rest, rfl, -, -, -, rfl, -⟩
  · rw [Token.start_endOfFile (by omega), Token.stop_endOfFile (by omega)]
    omega
  · rw [byteSize_append, byteSize_append] at hsize
    rw [Lexeme.start_token (by omega), Lexeme.stop_token (by omega)]
    omega

theorem pairwise (h : Writes offset cs ts) (hsize : offset + byteSize cs < UInt32.size) :
    ts.Pairwise fun t u ↦ t.stop ≤ u.start := by
  induction h with
  | eof => exact List.pairwise_singleton _ _
  | @cons offset w rest l ts hw hl hrest hts ih =>
    rw [byteSize_append, byteSize_append] at hsize
    refine List.pairwise_cons.2 ⟨fun u hu ↦ ?_, ih (by omega)⟩
    rw [Lexeme.stop_token (by omega)]
    exact (hts.bounds (by omega) hu).1

/-- The last token is the end of the text. -/
theorem exists_eof (h : Writes offset cs ts) :
    ∃ us, ts = us ++ [.endOfFile (offset + byteSize cs)] ∧ ∀ t ∈ us, t.kind ≠ .eof := by
  induction h with
  | eof => exact ⟨[], rfl, nofun⟩
  | @cons offset w rest l ts hw hl hrest hts ih =>
    obtain ⟨us, rfl, hus⟩ := ih
    have hend : offset + byteSize w + byteSize l.spelling + byteSize rest =
        offset + byteSize (w ++ (l.spelling ++ rest)) := by
      rw [byteSize_append, byteSize_append]
      omega
    rw [hend]
    exact ⟨_ :: us, rfl, List.forall_mem_cons.2 ⟨l.kind_ne_eof, hus⟩⟩

/-- A byte of the text is in a token or between two of them. -/
theorem covers (h : Writes offset cs ts) (hsize : offset + byteSize cs < UInt32.size) {i : Nat}
    (hle : offset ≤ i) (hlt : i < offset + byteSize cs) :
    (∃ t ∈ ts, t.start ≤ i ∧ i < t.stop) ∨
      ∃ before t after, ts = before ++ t :: after ∧ stopAfter offset before ≤ i ∧ i < t.start := by
  induction h with
  | eof offset hw => exact .inr ⟨[], _, [], rfl, hle, by rwa [Token.start_endOfFile hsize]⟩
  | @cons offset w rest l ts hw hl hrest hts ih =>
    rw [byteSize_append, byteSize_append] at hsize hlt
    have hstart : (l.token (offset + byteSize w)).start = _ := Lexeme.start_token (by omega)
    have hstop : (l.token (offset + byteSize w)).stop = _ := Lexeme.stop_token (by omega)
    by_cases hgap : i < offset + byteSize w
    · exact .inr ⟨[], _, ts, rfl, hle, by rwa [hstart]⟩
    by_cases htoken : i < offset + byteSize w + byteSize l.spelling
    · exact .inl ⟨_, List.mem_cons_self, by omega, by omega⟩
    rcases ih (by omega) (by omega) (by omega) with ⟨t, ht, hi⟩ | ⟨before, t, after, rfl, hi⟩
    · exact .inl ⟨t, List.mem_cons_of_mem _ ht, hi⟩
    · refine .inr ⟨_ :: before, t, after, rfl, ?_⟩
      rwa [stopAfter, hstop]

end Writes

/-- Of tokens in their order, none stops behind the last one. -/
theorem stop_le_stopAfter {ts : List Token} (hts : ts.Pairwise fun t u ↦ t.stop ≤ u.start)
    (hle : ∀ t ∈ ts, t.start ≤ t.stop) {t : Token} (ht : t ∈ ts) (offset : Nat) :
    t.stop ≤ stopAfter offset ts := by
  induction ts generalizing offset t with
  | nil => exact absurd ht List.not_mem_nil
  | cons u ts ih =>
    rw [List.pairwise_cons] at hts
    rw [List.forall_mem_cons] at hle
    rcases List.mem_cons.1 ht with rfl | ht
    · rcases ts with _ | ⟨v, ts⟩
      · exact Nat.le_refl _
      · calc t.stop ≤ v.start := hts.1 v List.mem_cons_self
          _ ≤ v.stop := hle.2 v List.mem_cons_self
          _ ≤ stopAfter t.stop (v :: ts) := ih hts.2 hle.2 List.mem_cons_self _
    · exact ih hts.2 hle.2 ht _

/-- A byte between two of them is in none. -/
theorem not_covered_of_gap {before after : List Token} {t : Token} {offset i : Nat}
    (hts : (before ++ t :: after).Pairwise fun t u ↦ t.stop ≤ u.start)
    (hle : ∀ u ∈ before ++ t :: after, u.start ≤ u.stop) (hbefore : stopAfter offset before ≤ i)
    (hbehind : i < t.start) : ∀ u ∈ before ++ t :: after, ¬ (u.start ≤ i ∧ i < u.stop) := by
  rw [List.pairwise_append, List.pairwise_cons] at hts
  obtain ⟨hpairs, ⟨hafter, -⟩, -⟩ := hts
  rw [List.forall_mem_append, List.forall_mem_cons] at hle
  rintro u hu ⟨hstart, hstop⟩
  rcases List.mem_append.1 hu with hu | hu
  · have := stop_le_stopAfter hpairs hle.1 hu offset
    omega
  · rcases List.mem_cons.1 hu with rfl | hu
    · omega
    · have := hafter u hu
      omega

/-! ## The whole source -/

section Source

variable {source : String} {t : Token} {ts before after : List Token}

/-- Each token has blanks and comments in front of it, and it is the end or stands in the source. -/
theorem Writes.place (h : Writes 0 source.toList (before ++ t :: after))
    (hsize : source.utf8ByteSize < UInt32.size) :
    ClosingTrivia (slice source (stopAfter 0 before) t.start).toList ∧
        t = .endOfFile source.utf8ByteSize ∨
      Trivia (slice source (stopAfter 0 before) t.start).toList ∧ t.kind ≠ .eof ∧
        t.ReadFrom source := by
  have hbytes := byteSize_toList source
  obtain ⟨front, back, hsource, hstop, hback⟩ := h.split (by omega)
  rw [Nat.zero_add] at hstop hback
  rw [hsource, byteSize_append] at hbytes
  rw [hstop]
  rcases hback.cases_cons with ⟨hw, rfl, -⟩ | ⟨w, l, rest, rfl, hw, hl, hrest, rfl, -⟩
  · have hends : front ++ back = front ++ (back ++ []) := by rw [List.append_nil]
    have hslice := slice_of_append (hsource.trans hends)
    rw [Token.start_endOfFile (by omega), hslice, String.toList_ofList, hbytes]
    exact .inl ⟨hw, rfl⟩
  · rw [byteSize_append, byteSize_append] at hbytes
    have hread := Lexeme.readFrom_token (hsource.trans (List.append_assoc ..).symm) hl hrest hsize
    rw [byteSize_append] at hread
    rw [Lexeme.start_token (by omega), slice_of_append hsource, String.toList_ofList]
    exact .inr ⟨hw, l.kind_ne_eof, hread⟩

/-- **Nothing of a source is lost.**  The tokens of a source are the longest ones that stand in it,
one behind the other, with nothing but blanks and comments left over. -/
theorem tokenize_lossless (hsize : source.utf8ByteSize < UInt32.size)
    (h : tokenize source = .ok ts) : Lossless source ts := by
  have hwrites := tokenize_eq_ok_iff.1 h
  have hbytes := byteSize_toList source
  have hordered := hwrites.pairwise (by omega)
  constructor
  case ended =>
    obtain ⟨us, rfl, hus⟩ := hwrites.exists_eof
    rw [Nat.zero_add, hbytes]
    exact ⟨us, _, rfl, hus, rfl, rfl, Token.start_endOfFile hsize, Token.stop_endOfFile hsize⟩
  case read =>
    intro t ht hkind
    obtain ⟨before, after, rfl⟩ := List.append_of_mem ht
    rcases hwrites.place hsize with ⟨-, rfl⟩ | ⟨-, -, hread⟩
    · exact absurd rfl hkind
    · exact hread
  case ordered => exact hordered
  case trivia =>
    rintro before t after rfl hkind
    rcases hwrites.place hsize with ⟨-, rfl⟩ | ⟨hw, -, -⟩
    · exact absurd rfl hkind
    · exact hw
  case closingTrivia =>
    rintro before t after rfl hkind
    rcases hwrites.place hsize with ⟨hw, -⟩ | ⟨-, hne, -⟩
    · exact hw
    · exact absurd hkind hne
  case uncovered =>
    intro i hi
    constructor
    · intro hnone
      rcases hwrites.covers (by omega) (Nat.zero_le i) (by omega) with ⟨t, ht, hit⟩ | hgap
      · exact absurd hit (hnone t ht)
      · exact hgap
    · rintro ⟨before, t, after, rfl, hbefore, hbehind⟩
      exact not_covered_of_gap hordered (fun v hv ↦ (hwrites.bounds (by omega) hv).2) hbefore
        hbehind

/-- Comments, and a character of two bytes in a text. -/
theorem tokenize_lossless_comments :
    Lossless "// é\nx = \"ü\" // end" [
      ⟨.identifier, "x", .between 6 7⟩, ⟨.symbol .assign, "=", .between 8 9⟩,
      ⟨.text .double, "ü", .between 10 14⟩, .endOfFile 21] :=
  tokenize_lossless (by decide +kernel) (eq_ok_of_toOption (by decide +kernel))

end Source

end SvLang
