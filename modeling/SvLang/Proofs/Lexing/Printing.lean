import SvLang.Proofs.Lexing.Lossless

/-!
# Lexemes that are printed are read again

Lexemes can be printed in many ways: they may touch where they cannot be taken for one, and
elsewhere a blank must come between them.  However they are printed, they are read again, each at
the bytes where it stands (`tokenize_printout`).

## What is here

* `Printout`: lexemes, and what is printed between them; `Printout.Spaced` says when that is enough
  to keep the lexemes apart.
* `Lexeme.endsBefore_of_isBreak`: the one reason why lexemes stay apart.  Some characters go on with
  no lexeme, and all blanks and all delimiters start with one of them.
* `reprint`: the text of a list of tokens, with a space behind each; `ReadsBack` says that this and
  all other printouts of the tokens are read as them.
-/

set_option autoImplicit false

namespace SvLang

/-! ## Characters at which lexemes end -/

/-- No lexeme in front of the character goes on with it. -/
def isBreak (c : Char) : Bool := !isWordPart c && c ∉ ['.', '=', '+', '-', '/']

theorem isBreak_of_isBlank {c : Char} (h : isBlank c) : isBreak c := by
  simp only [isBlank, Bool.or_eq_true, decide_eq_true_iff] at h
  rcases h with ((rfl | rfl) | rfl) | rfl <;> decide

theorem isBreak_mark (q : Quote) : isBreak q.mark := by cases q <;> decide

namespace Symbol

/-- The symbols that are written with a character of which no other symbol is made. -/
def delimiters : List Symbol :=
  [openParen, closeParen, openBrace, closeBrace, openBracket, closeBracket, semicolon, comma, colon,
    percent, less, greater]

theorem spelling_of_mem_delimiters {s : Symbol} (h : s ∈ delimiters) :
    ∃ c, s.spelling = [c] ∧ isBreak c ∧ ∀ d, ofPair? c d = none := by
  simp only [delimiters, List.mem_cons, List.not_mem_nil, or_false] at h
  rcases h with rfl | rfl | rfl | rfl | rfl | rfl | rfl | rfl | rfl | rfl | rfl | rfl <;>
    exact ⟨_, rfl, by decide, fun d ↦ rfl⟩

/-- A symbol of two characters ends with an equals sign, a plus or a minus. -/
theorem ofPair?_eq_none {c d : Char} (h : d ∉ ['=', '+', '-']) : ofPair? c d = none := by
  fun_cases ofPair? c d <;> first | rfl | simp at h

end Symbol

namespace Lexeme

/-- Other lexemes may touch this one. -/
def IsDelimiter : Lexeme → Prop
  | symbol s => s ∈ Symbol.delimiters
  | quoted .. => True
  | _ => False

/-- A delimiter goes on with nothing. -/
theorem IsDelimiter.endsBefore {l : Lexeme} (h : l.IsDelimiter) (rest : List Char) :
    l.EndsBefore rest := by
  cases l with
  | symbol s =>
    obtain ⟨c, hc, hbreak, hpair⟩ := Symbol.spelling_of_mem_delimiters h
    refine ⟨fun c' hc' d _ ↦ ?_, ?_⟩
    · rw [hc] at hc'
      cases hc'
      exact hpair d
    · rintro rfl
      cases hc
      exact absurd hbreak (by decide)
  | quoted => trivial
  | whole | decimal | word => exact h.elim

/-- Nothing goes on with a delimiter. -/
theorem IsDelimiter.exists_isBreak {l : Lexeme} (h : l.IsDelimiter) :
    ∃ c cs, l.spelling = c :: cs ∧ isBreak c := by
  cases l with
  | symbol s =>
    obtain ⟨c, hc, hbreak, -⟩ := Symbol.spelling_of_mem_delimiters h
    exact ⟨c, [], hc, hbreak⟩
  | quoted q content => exact ⟨_, _, rfl, isBreak_mark q⟩
  | whole | decimal | word => exact h.elim

/-- Every lexeme ends in front of a break. -/
theorem endsBefore_of_isBreak (l : Lexeme) {c : Char} (h : isBreak c) (rest : List Char) :
    l.EndsBefore (c :: rest) := by
  rw [isBreak, Bool.and_eq_true, Bool.not_eq_true', decide_eq_true_iff] at h
  obtain ⟨hpart, hmem⟩ := h
  simp only [List.mem_cons, List.not_mem_nil, or_false, not_or] at hmem
  have hdigit : ¬ c.isDigit := by
    intro hd
    rw [isWordPart_of_isDigit hd] at hpart
    exact absurd hpart (by decide)
  cases l with
  | symbol s => exact ⟨by simp [Symbol.ofPair?_eq_none, hmem], by simp [hmem]⟩
  | whole | decimal | word => simp [EndsBefore, hdigit, hpart, hmem]
  | quoted => trivial

end Lexeme

/-! ## Printouts -/

/-- Lexemes, and what is printed between them. -/
structure Printout where
  /-- What stands in front of the first lexeme. -/
  lead : List Char
  /-- The lexemes, each with what stands behind it. -/
  items : List (Lexeme × List Char)

namespace Printout

/-- The text that is printed. -/
def text (x : Printout) : List Char := x.lead ++ x.items.flatMap fun p ↦ p.1.spelling ++ p.2

/-- Only blanks and comments stand between the lexemes, and enough of them to keep the lexemes
apart. -/
structure Spaced (x : Printout) : Prop where
  /-- The lexemes can be written. -/
  wellFormed : ∀ p ∈ x.items, p.1.WellFormed
  /-- In front of the first lexeme are blanks and comments. -/
  lead : x.items ≠ [] → Trivia x.lead
  /-- If there is no lexeme, these may end with a comment that has no end of line. -/
  lead_closing : x.items = [] → ClosingTrivia x.lead
  /-- What stands behind a lexeme, if anything does, starts with a blank. -/
  blank : ∀ p ∈ x.items, ∀ c ∈ p.2.head?, isBlank c
  /-- Between two lexemes are blanks and comments, or nothing at all beside a delimiter. -/
  inner : x.items.IsChain fun p q ↦
    Trivia p.2 ∧ (p.2 = [] → p.1.IsDelimiter ∨ q.1.IsDelimiter)
  /-- Behind the last lexeme are blanks and comments, which may end with a comment that has no end
  of line. -/
  last : ∀ p ∈ x.items.getLast?, ClosingTrivia p.2

/-- These are the tokens of the lexemes, in their order and where the lexemes stand. -/
structure ReadAs (x : Printout) (ts : List Token) : Prop where
  /-- There is one token for each lexeme. -/
  length_eq : ts.length = x.items.length
  /-- It has the kind and the text of the lexeme, and its bytes. -/
  token : ∀ before l w after, x.items = before ++ (l, w) :: after →
    ∃ t, ts[before.length]? = some t ∧ t.kind = l.kind ∧ t.text = String.ofList l.text ∧
      (byteSize x.text < UInt32.size → t.start = byteSize (text ⟨x.lead, before⟩) ∧
        t.stop = byteSize (text ⟨x.lead, before⟩) + byteSize l.spelling)

/-- The tokens of lexemes that are printed behind `start` bytes. -/
def tokensFrom (start : Nat) : List (Lexeme × List Char) → List Token
  | [] => []
  | (l, w) :: ps => l.token start :: tokensFrom (start + byteSize l.spelling + byteSize w) ps

variable {lead w : List Char} {l : Lexeme} {ps : List (Lexeme × List Char)}

theorem text_nil (lead : List Char) : text ⟨lead, []⟩ = lead := List.append_nil lead

/-- Behind a lexeme a printout goes on as a printout. -/
theorem text_append (lead : List Char) (before : List (Lexeme × List Char)) (l : Lexeme)
    (w : List Char) (after : List (Lexeme × List Char)) :
    text ⟨lead, before ++ (l, w) :: after⟩ =
      text ⟨lead, before⟩ ++ (l.spelling ++ text ⟨w, after⟩) := by
  simp [text]

theorem text_cons (lead : List Char) (l : Lexeme) (w : List Char) (ps : List (Lexeme × List Char)) :
    text ⟨lead, (l, w) :: ps⟩ = lead ++ (l.spelling ++ text ⟨w, ps⟩) := by
  simp [text]

theorem Spaced.tail (h : Spaced ⟨lead, (l, w) :: ps⟩) : Spaced ⟨w, ps⟩ where
  wellFormed p hp := h.wellFormed p (List.mem_cons_of_mem _ hp)
  lead hps := by
    obtain ⟨q, ps, rfl⟩ := List.exists_cons_of_ne_nil hps
    exact (List.isChain_cons_cons.1 h.inner).1.1
  lead_closing := by
    rintro rfl
    exact h.last (l, w) rfl
  blank p hp := h.blank p (List.mem_cons_of_mem _ hp)
  inner := List.isChain_of_isChain_cons h.inner
  last p hp := h.last p (by simp [List.getLast?_cons, Option.mem_def.1 hp])

/-- Each lexeme ends where the printout goes on. -/
theorem Spaced.endsBefore (h : Spaced ⟨lead, (l, w) :: ps⟩) : l.EndsBefore (text ⟨w, ps⟩) := by
  rcases w with _ | ⟨c, w⟩
  · rcases ps with _ | ⟨⟨l', w'⟩, ps⟩
    · exact l.endsBefore_nil
    · rw [text_cons, List.nil_append]
      rcases (List.isChain_cons_cons.1 h.inner).1.2 rfl with hl | hl'
      · exact hl.endsBefore _
      · obtain ⟨c, cs, hcs, hc⟩ := hl'.exists_isBreak
        rw [hcs]
        exact l.endsBefore_of_isBreak hc _
  · exact l.endsBefore_of_isBreak (isBreak_of_isBlank (h.blank _ List.mem_cons_self c rfl)) _

/-- A printout writes the tokens of its lexemes. -/
theorem Spaced.writes (h : Spaced ⟨lead, ps⟩) (offset : Nat) :
    Writes offset (text ⟨lead, ps⟩)
      (tokensFrom (offset + byteSize lead) ps ++
        [.endOfFile (offset + byteSize (text ⟨lead, ps⟩))]) := by
  induction ps generalizing lead offset with
  | nil =>
    rw [text_nil]
    exact .eof offset (h.lead_closing rfl)
  | cons p ps ih =>
    obtain ⟨l, w⟩ := p
    have hrest := ih h.tail (offset + byteSize lead + byteSize l.spelling)
    have hsize : offset + byteSize lead + byteSize l.spelling + byteSize (text ⟨w, ps⟩) =
        offset + byteSize (text ⟨lead, (l, w) :: ps⟩) := by
      rw [text_cons, byteSize_append, byteSize_append]
      omega
    rw [hsize] at hrest
    rw [text_cons] at hrest ⊢
    exact .cons offset (h.lead (List.cons_ne_nil _ _)) (h.wellFormed _ List.mem_cons_self)
      h.endsBefore hrest

theorem length_tokensFrom (start : Nat) (ps : List (Lexeme × List Char)) :
    (tokensFrom start ps).length = ps.length := by
  induction ps generalizing start with
  | nil => rfl
  | cons p ps ih => rw [tokensFrom, List.length_cons, List.length_cons, ih]

theorem map_tokensFrom (start : Nat) (ps : List (Lexeme × List Char)) :
    (tokensFrom start ps).map (fun t ↦ (t.kind, t.text)) =
      ps.map fun p ↦ (p.1.kind, String.ofList p.1.text) := by
  induction ps generalizing start with
  | nil => rfl
  | cons p ps ih =>
    rw [tokensFrom, List.map_cons, List.map_cons, ih]
    rfl

/-- The token of a lexeme stands behind all that is printed in front of it. -/
theorem getElem?_tokensFrom (before : List (Lexeme × List Char)) (lead : List Char) (l : Lexeme)
    (w : List Char) (after : List (Lexeme × List Char)) (offset : Nat) :
    (tokensFrom (offset + byteSize lead) (before ++ (l, w) :: after))[before.length]? =
      some (l.token (offset + byteSize (text ⟨lead, before⟩))) := by
  induction before generalizing lead offset with
  | nil =>
    rw [text_nil]
    rfl
  | cons p before ih =>
    obtain ⟨l', w'⟩ := p
    have hstart : offset + byteSize (text ⟨lead, (l', w') :: before⟩) =
        offset + byteSize lead + byteSize l'.spelling + byteSize (text ⟨w', before⟩) := by
      rw [text_cons, byteSize_append, byteSize_append]
      omega
    rw [hstart, ← ih]
    rfl

theorem readAs_tokensFrom (x : Printout) : x.ReadAs (tokensFrom (byteSize x.lead) x.items) := by
  obtain ⟨lead, items⟩ := x
  refine ⟨length_tokensFrom _ _, ?_⟩
  rintro before l w after rfl
  have hget := getElem?_tokensFrom before lead l w after 0
  rw [Nat.zero_add, Nat.zero_add] at hget
  refine ⟨_, hget, rfl, rfl, fun hsize ↦ ?_⟩
  have hfits : byteSize (text ⟨lead, before⟩) + byteSize l.spelling < UInt32.size := by
    rw [text_append, byteSize_append, byteSize_append] at hsize
    omega
  exact ⟨Lexeme.start_token hfits, Lexeme.stop_token hfits⟩

theorem Spaced.tokenize {x : Printout} (h : x.Spaced) :
    tokenize (String.ofList x.text) =
      .ok (tokensFrom (byteSize x.lead) x.items ++ [.endOfFile (byteSize x.text)]) := by
  rw [tokenize_eq_ok_iff, String.toList_ofList]
  simpa only [Nat.zero_add] using h.writes 0

end Printout

/-! ## Tokens that are written again -/

/-- The token as it is written: its text, and the marks around it if it is a quoted text. -/
def Token.spelling (t : Token) : List Char :=
  match t.kind with
  | .text q => q.mark :: (t.text.toList ++ [q.mark])
  | _ => t.text.toList

/-- The tokens in a text, with a space behind each. -/
def reprint (ts : List Token) : String :=
  String.ofList (ts.flatMap fun t ↦ t.spelling ++ [' '])

/-- However the tokens are printed, they are read again with the kinds and the texts that they
have. -/
structure ReadsBack (ts : List Token) : Prop where
  /-- This holds of every printout of them. -/
  printout : ∀ x : Printout, x.Spaced → x.items.map (fun p ↦ p.1.spelling) = ts.map Token.spelling →
    ∃ us, tokenize (String.ofList x.text) = .ok (us ++ [.endOfFile (byteSize x.text)]) ∧
      us.map (fun t ↦ (t.kind, t.text)) = ts.map fun t ↦ (t.kind, t.text)
  /-- One printout has a space behind each. -/
  reprint : ∃ us size, tokenize (reprint ts) = .ok (us ++ [.endOfFile size]) ∧
    us.map (fun t ↦ (t.kind, t.text)) = ts.map fun t ↦ (t.kind, t.text)

theorem Token.spelling_of_kind {t : Token} {q : Quote} (h : t.kind = .text q) :
    t.spelling = q.mark :: (t.text.toList ++ [q.mark]) := by
  rw [spelling, h]

theorem Token.spelling_of_ne {t : Token} (h : ∀ q, t.kind ≠ .text q) :
    t.spelling = t.text.toList := by
  rw [spelling]
  split
  · rename_i q hq
    exact absurd hq (h q)
  · rfl

/-- The token of a lexeme is written as the lexeme. -/
theorem Lexeme.spelling_of_token {l : Lexeme} {t : Token} (hkind : t.kind = l.kind)
    (htext : t.text = String.ofList l.text) : t.spelling = l.spelling := by
  by_cases hq : ∃ q, l.kind = .text q
  · obtain ⟨q, hq⟩ := hq
    obtain ⟨content, rfl⟩ := exists_of_kind_eq_text hq
    rw [Token.spelling_of_kind (hkind.trans hq), htext, String.toList_ofList]
    rfl
  · rw [not_exists] at hq
    rw [Token.spelling_of_ne (fun q ↦ hkind ▸ hq q), htext, String.toList_ofList,
      text_eq_spelling hq]

/-- A token that is written as one of its kind has the kind and the text of the lexeme that is
written so. -/
theorem Lexeme.WellFormed.content_eq {l : Lexeme} {t : Token} (hl : l.WellFormed)
    (ht : Lexical t.kind t.spelling) (h : l.spelling = t.spelling) :
    (l.kind, String.ofList l.text) = (t.kind, t.text) := by
  have hkind : t.kind = l.kind := hl.lexical_spelling_iff.1 (h ▸ ht)
  by_cases hq : ∃ q, l.kind = .text q
  · obtain ⟨q, hq⟩ := hq
    obtain ⟨content, rfl⟩ := Lexeme.exists_of_kind_eq_text hq
    rw [Token.spelling_of_kind (hkind.trans hq)] at h
    have hcontent : content = t.text.toList := by simpa [Lexeme.spelling] using h
    rw [hkind, Lexeme.text, hcontent, String.ofList_toList]
  · rw [not_exists] at hq
    rw [Token.spelling_of_ne (fun q ↦ hkind ▸ hq q)] at h
    rw [hkind, Lexeme.text_eq_spelling hq, h, String.ofList_toList]

/-- With a space behind each, lexemes are kept apart. -/
theorem spaced_spaces {ls : List Lexeme} (h : ∀ l ∈ ls, l.WellFormed) :
    Printout.Spaced ⟨[], ls.map fun l ↦ (l, [' '])⟩ where
  wellFormed := by simpa using h
  lead _ := .nil
  lead_closing _ := closingTrivia_nil
  blank := by simp [isBlank]
  inner := List.Pairwise.isChain <| List.pairwise_map.2 <|
    List.pairwise_of_forall fun _ _ ↦ ⟨.blank rfl .nil, nofun⟩
  last p hp := by
    obtain ⟨l, -, rfl⟩ := List.mem_map.1 (List.mem_of_getLast? hp)
    exact ⟨[' '], [], rfl, .blank rfl .nil, .inl rfl⟩

section Lists

variable {ts : List Token} (hts : ∀ t ∈ ts, Lexical t.kind t.spelling)
include hts

theorem exists_lexemes : ∃ ls : List Lexeme, (∀ l ∈ ls, l.WellFormed) ∧
    ls.map Lexeme.spelling = ts.map Token.spelling := by
  induction ts with
  | nil => exact ⟨[], nofun, rfl⟩
  | cons t ts ih =>
    rw [List.forall_mem_cons] at hts
    obtain ⟨l, hl, hspelling, -⟩ := Lexeme.lexical_iff.1 hts.1
    obtain ⟨ls, hls, hspellings⟩ := ih hts.2
    exact ⟨l :: ls, List.forall_mem_cons.2 ⟨hl, hls⟩, by
      rw [List.map_cons, List.map_cons, hspelling, hspellings]⟩

theorem map_content_eq {ls : List Lexeme} (hls : ∀ l ∈ ls, l.WellFormed)
    (h : ls.map Lexeme.spelling = ts.map Token.spelling) :
    ls.map (fun l ↦ (l.kind, String.ofList l.text)) = ts.map fun t ↦ (t.kind, t.text) := by
  induction ts generalizing ls with
  | nil =>
    rw [List.map_eq_nil_iff.1 h]
    rfl
  | cons t ts ih =>
    obtain ⟨l, ls, rfl, hspelling, hspellings⟩ := List.map_eq_cons_iff.1 h
    rw [List.forall_mem_cons] at hts hls
    rw [List.map_cons, List.map_cons, hls.1.content_eq hts.1 hspelling, ih hts.2 hls.2 hspellings]

/-- A printout of tokens is read as them. -/
theorem tokenize_of_printout {x : Printout} (hx : x.Spaced)
    (h : x.items.map (fun p ↦ p.1.spelling) = ts.map Token.spelling) :
    ∃ us, tokenize (String.ofList x.text) = .ok (us ++ [.endOfFile (byteSize x.text)]) ∧
      us.map (fun t ↦ (t.kind, t.text)) = ts.map fun t ↦ (t.kind, t.text) := by
  refine ⟨_, hx.tokenize, ?_⟩
  have hwell : ∀ l ∈ x.items.map Prod.fst, l.WellFormed := by
    rw [List.forall_mem_map]
    exact hx.wellFormed
  rw [Printout.map_tokensFrom, ← map_content_eq hts hwell (by rwa [List.map_map]), List.map_map]
  rfl

theorem readsBack_of_lexical : ReadsBack ts := by
  refine ⟨fun x hx h ↦ tokenize_of_printout hts hx h, ?_⟩
  obtain ⟨ls, hls, hspellings⟩ := exists_lexemes hts
  have htext : reprint ts = String.ofList (Printout.text ⟨[], ls.map fun l ↦ (l, [' '])⟩) := by
    have hflat := congrArg (List.flatMap (· ++ [' '])) hspellings
    rw [List.flatMap_map, List.flatMap_map] at hflat
    rw [reprint, Printout.text, List.nil_append, List.flatMap_map, hflat]
  obtain ⟨us, hus, hcontent⟩ :=
    tokenize_of_printout hts (spaced_spaces hls) (by rwa [List.map_map])
  exact ⟨us, _, htext ▸ hus, hcontent⟩

end Lists

/-- The tokens of a source are read back from what they are written as. -/
theorem readsBack_of_tokenize {source : String} {ts : List Token} {eof : Token}
    (h : tokenize source = .ok (ts ++ [eof])) : ReadsBack ts := by
  have hwrites := tokenize_eq_ok_iff.1 h
  obtain ⟨us, htokens, hus⟩ := hwrites.exists_eof
  obtain rfl : ts = us := List.append_inj_left' htokens rfl
  refine readsBack_of_lexical fun t ht ↦ ?_
  obtain ⟨l, hl, hkind, htext⟩ := hwrites.exists_lexeme (List.mem_append_left _ ht) (hus t ht)
  rw [Lexeme.spelling_of_token hkind htext, hl.lexical_spelling_iff]
  exact hkind

/-- **What is printed is read again.**  A printout with enough between its lexemes is read as one
token for each, with the bytes that it takes.  So tokens that are printed are read again as what
they are, whether they come from a source or not. -/
theorem tokenize_printout :
    (∀ x : Printout, x.Spaced → ∃ ts,
      tokenize (String.ofList x.text) = .ok (ts ++ [.endOfFile (byteSize x.text)]) ∧
        x.ReadAs ts) ∧
      (∀ ts, (∀ t ∈ ts, Lexical t.kind t.spelling) → ReadsBack ts) ∧
        ∀ source ts eof, tokenize source = .ok (ts ++ [eof]) → ReadsBack ts :=
  ⟨fun x hx ↦ ⟨_, hx.tokenize, x.readAs_tokensFrom⟩, fun _ h ↦ readsBack_of_lexical h,
    fun _ _ _ h ↦ readsBack_of_tokenize h⟩

/-- Slashes in a text, alone and before comments; two plus signs that are not one lexeme. -/
theorem tokenize_printout_slashes :
    (∃ x : Printout, String.ofList x.text = "\"//\"x / // é\n; // end" ∧ x.Spaced ∧
      ∃ ts, tokenize (String.ofList x.text) = .ok (ts ++ [.endOfFile (byteSize x.text)]) ∧
        x.ReadAs ts) ∧
      ReadsBack [⟨.symbol .plus, "+", ⟨0, 0⟩⟩, ⟨.symbol .plus, "+", ⟨0, 0⟩⟩] ∧
        ReadsBack [⟨.identifier, "a", .between 0 1⟩, ⟨.symbol .plusPlus, "++", .between 1 3⟩] := by
  have hspaced : Printout.Spaced ⟨[], [(.quoted .double ['/', '/'], []), (.word ['x'], [' ']),
      (.symbol .slash, [' ', '/', '/', ' ', 'é', '\n']),
      (.symbol .semicolon, [' ', '/', '/', ' ', 'e', 'n', 'd'])]⟩ := by
    constructor
    · simp [Lexeme.WellFormed, Quote.mark, isWordStart]
    · exact fun _ ↦ .nil
    · exact fun _ ↦ closingTrivia_nil
    · simp [isBlank]
    · have hspace : Trivia [' '] := .blank rfl .nil
      have hcomment : Trivia ('/' :: '/' :: ([' ', 'é'] ++ '\n' :: [])) := .comment (by decide) .nil
      have hline : Trivia [' ', '/', '/', ' ', 'é', '\n'] := .blank rfl hcomment
      simp [Lexeme.IsDelimiter, Trivia.nil, hspace, hline]
    · rintro p ⟨⟩
      exact ⟨[' '], _, rfl, .blank rfl .nil, .inr ⟨[' ', 'e', 'n', 'd'], rfl, by decide⟩⟩
  refine ⟨⟨_, by decide +kernel, hspaced, tokenize_printout.1 _ hspaced⟩,
    tokenize_printout.2.1 _ ?_,
    tokenize_printout.2.2 "a++" _ (.endOfFile 3) (eq_ok_of_toOption (by decide +kernel))⟩
  intro t ht
  obtain rfl : t = ⟨.symbol .plus, "+", ⟨0, 0⟩⟩ := by simpa using ht
  exact .symbol .plus

end SvLang
