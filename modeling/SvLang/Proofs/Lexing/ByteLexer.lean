import SvLang.Proofs.Lexing.Bytes
import SvLang.Proofs.Lexing.Defect

/-!
# A lexer over bytes

A `Lexer` reads characters, and where it would have to go on inside a character it has a state of
its own.  A `ByteLexer` knows nothing of characters: it has a text and a byte position, moves byte
by byte, and takes slices of the text, which fail if they do not start and end between two
characters.

Between two characters it reads what is written there: a lexeme as its token (`read_lexeme`), and
otherwise the error of `Lexeme.scan` (`read_unrecognized`, `read_unterminated`).
-/

set_option autoImplicit false

namespace SvLang

instance (source : String) (offset : Nat) : Decidable (IsBoundary source offset) :=
  inferInstanceAs (Decidable (String.Pos.Raw.IsValid source ⟨offset⟩))

/-- A text, and the byte at which a lexer stands. -/
structure ByteLexer where
  text : String
  pos : Nat

namespace ByteLexer

/-! ## The machine -/

/-- What a call gives: a token or an error with the state behind it, or nothing if a slice
failed. -/
abbrev Answer : Type := Option (Except LexError Token × ByteLexer)

/-- A lexer at the front of a source. -/
def ofSource (source : String) : ByteLexer := ⟨source, 0⟩

/-- The bytes ahead. -/
def ahead (m : ByteLexer) : List Char := (m.text.toUTF8.data.toList.drop m.pos).map Char.ofUInt8

/-- Passes a number of bytes. -/
def skip (m : ByteLexer) (n : Nat) : ByteLexer := ⟨m.text, m.pos + n⟩

/-- Passes the bytes up to the first one that is not of a class. -/
def skipWhile (p : Char → Bool) (m : ByteLexer) : ByteLexer := m.skip (m.ahead.takeWhile p).length

theorem ahead_skip (m : ByteLexer) (n : Nat) : (m.skip n).ahead = m.ahead.drop n := by
  rw [ahead, ahead, skip, ← List.map_drop, List.drop_drop]

theorem ahead_skipWhile (p : Char → Bool) (m : ByteLexer) :
    (m.skipWhile p).ahead = m.ahead.dropWhile p := by
  rw [skipWhile, ahead_skip]
  exact (congrArg (List.drop _) List.takeWhile_append_dropWhile.symm).trans List.drop_left

/-- Passes blanks and comments.  A comment is passed up to the end of its line, which is a blank. -/
def skipTrivia (m : ByteLexer) : ByteLexer :=
  if ['/', '/'] <+: (m.skipWhile isBlank).ahead then
    ((m.skipWhile isBlank).skipWhile (· != '\n')).skipTrivia
  else m.skipWhile isBlank
termination_by m.ahead.length
decreasing_by
  rename_i h
  obtain ⟨cs, hcs⟩ := h
  have hblanks := List.length_dropWhile_le isBlank m.ahead
  have hcomment := List.length_dropWhile_le (· != '\n') cs
  rw [← ahead_skipWhile, ← hcs] at hblanks
  rw [ahead_skipWhile _ (m.skipWhile isBlank), ← hcs]
  simp at hblanks ⊢
  omega

/-- The text between two bytes. -/
def slice? (m : ByteLexer) (start stop : Nat) : Option String :=
  if start ≤ stop ∧ IsBoundary m.text start ∧ IsBoundary m.text stop then
    some (slice m.text start stop)
  else none

/-- The token from `start` up to here. -/
def token (m : ByteLexer) (kind : TokenKind) (start : Nat) : Answer :=
  (m.slice? start m.pos).map fun text ↦ (.ok ⟨kind, text, .between start m.pos⟩, m)

/-- Behind the opening mark of a text. -/
def quoted (m : ByteLexer) (q : Quote) (start : Nat) : Answer :=
  let close := m.skipWhile (· != q.mark)
  match close.ahead with
  | [] => some (.error ⟨start, .unterminated q⟩, close)
  | _ :: _ =>
    let next := close.skip 1
    (m.slice? m.pos close.pos).map fun content ↦
      (.ok ⟨.text q, content, .between start next.pos⟩, next)

/-- Behind the first digit of a number.  A point belongs to it only if a digit follows. -/
def number (m : ByteLexer) (start : Nat) : Answer :=
  let digits := m.skipWhile Char.isDigit
  match digits.ahead with
  | '.' :: d :: _ =>
    if d.isDigit then
      let fraction := (digits.skip 1).skipWhile Char.isDigit
      let width := if fraction.pos - start < Lexeme.doubleLength then .float else .double
      fraction.token (.number width) start
    else digits.token (.number .numeric) start
  | _ => digits.token (.number .numeric) start

/-- Behind the first letter of a word. -/
def word (m : ByteLexer) (start : Nat) : Answer :=
  let letters := m.skipWhile isWordPart
  (letters.slice? start letters.pos).bind fun text ↦ letters.token (.ofWord text) start

/-- Behind a byte that starts no lexeme.  The character is looked up in the text. -/
def unrecognized (m : ByteLexer) (start : Nat) : Answer :=
  (m.slice? start m.text.utf8ByteSize).map fun rest ↦
    (.error ⟨start, .unrecognized (rest.toList.headD '\ufffd')⟩, m)

/-- The token or error at a place where neither a blank nor a comment starts. -/
def read (m : ByteLexer) : Answer :=
  match m.ahead with
  | [] => some (.ok (.endOfFile m.pos), m)
  | b :: bs =>
    let next := m.skip 1
    match bs.head?.bind (Symbol.ofPair? b) with
    | some s => (next.skip 1).token (.symbol s) m.pos
    | none =>
      match Symbol.ofChar? b with
      | some s => next.token (.symbol s) m.pos
      | none =>
        match Quote.ofChar? b with
        | some q => next.quoted q m.pos
        | none =>
          if b.isDigit then next.number m.pos
          else if isWordStart b then next.word m.pos
          else next.unrecognized m.pos

/-- The next token or error. -/
def next? (m : ByteLexer) : Answer := m.skipTrivia.read

@[simp] theorem pos_skip (m : ByteLexer) (n : Nat) : (m.skip n).pos = m.pos + n := rfl

@[simp] theorem text_skip (m : ByteLexer) (n : Nat) : (m.skip n).text = m.text := rfl

theorem skip_skip (m : ByteLexer) (n k : Nat) : (m.skip n).skip k = m.skip (n + k) := by
  rw [skip, skip, skip, Nat.add_assoc]

/-! ## Between two characters -/

/-- The lexer stands between these characters of its text. -/
structure Stands (m : ByteLexer) (before rest : List Char) : Prop where
  text : m.text.toList = before ++ rest
  pos : m.pos = byteSize before

namespace Stands

variable {m : ByteLexer} {before cs rest : List Char}

theorem ahead (h : m.Stands before rest) : m.ahead = bytesOfAll rest := by
  rw [ByteLexer.ahead, List.map_drop, bytesOfAll_toList, h.text, bytesOfAll_append, h.pos,
    ← length_bytesOfAll, List.drop_left]

theorem skip (h : m.Stands before (cs ++ rest)) :
    (m.skip (byteSize cs)).Stands (before ++ cs) rest where
  text := by rw [text_skip, h.text, List.append_assoc]
  pos := by rw [pos_skip, h.pos, byteSize_append]

/-- A run of a class is passed up to a character that is not of the class. -/
theorem skipWhile_eq {p : Char → Bool} (hp : Bytewise p) (h : m.Stands before (cs ++ rest))
    (hcs : ∀ c ∈ cs, p c) (hrest : ∀ c ∈ rest.head?, ¬ p c) :
    m.skipWhile p = m.skip (byteSize cs) := by
  rw [skipWhile, h.ahead, takeWhile_bytesOfAll hp, takeWhile_append_run hcs hrest,
    length_bytesOfAll]

/-- The first character, if it is of ASCII. -/
theorem first {c : Char} (hc : c.toNat < 128) (h : m.Stands before (c :: cs)) :
    m.ahead = c :: bytesOfAll cs ∧ (m.skip 1).Stands (before ++ [c]) cs := by
  have hskip : (m.skip (byteSize [c])).Stands (before ++ [c]) cs := skip h
  rw [byteSize_cons, utf8Size_of_lt hc] at hskip
  exact ⟨h.ahead.trans (bytesOfAll_cons_of_lt hc cs), hskip⟩

theorem slice?_eq (h : m.Stands (before ++ cs) rest) :
    m.slice? (byteSize before) m.pos = some (String.ofList cs) := by
  have htext := h.text.trans (List.append_assoc ..)
  rw [slice?, if_pos, h.pos, byteSize_append, slice_of_append htext]
  rw [h.pos]
  refine ⟨?_, isBoundary_of_append htext, isBoundary_of_append h.text⟩
  rw [byteSize_append]
  exact Nat.le_add_right _ _

theorem size (h : m.Stands before rest) : m.text.utf8ByteSize = m.pos + byteSize rest := by
  rw [h.pos, ← byteSize_toList, h.text, byteSize_append]

/-- All that is ahead. -/
theorem slice?_rest (h : m.Stands before rest) :
    m.slice? m.pos m.text.utf8ByteSize = some (String.ofList rest) := by
  have hend : m.Stands before (rest ++ []) := by rwa [List.append_nil]
  have hslice := hend.skip.slice?_eq
  rwa [← h.pos, pos_skip, ← h.size] at hslice

/-- The token of a lexeme that has just been passed. -/
theorem token_lexeme {l : Lexeme} (h : m.Stands (before ++ l.spelling) rest)
    (htext : l.text = l.spelling) :
    m.token l.kind (byteSize before) = some (.ok (l.token (byteSize before)), m) := by
  rw [token, h.slice?_eq, h.pos, byteSize_append, Lexeme.token, htext]
  rfl

end Stands

/-! ## The first byte of a lexeme -/

section FirstByte

variable {m : ByteLexer} {b : Char} {bs : List Char}

theorem ofPair?_eq_none (hb : ∀ s : Symbol, s.spelling.head? ≠ some b) :
    Symbol.ofPair? b = fun _ ↦ none := by
  funext d
  by_contra hne
  obtain ⟨s, hs⟩ := Option.ne_none_iff_exists'.1 hne
  exact hb s (by rw [Symbol.spelling_ofPair? hs]; rfl)

theorem ofChar?_eq_none (hb : ∀ s : Symbol, s.spelling.head? ≠ some b) :
    Symbol.ofChar? b = none := by
  by_contra hne
  obtain ⟨s, hs⟩ := Option.ne_none_iff_exists'.1 hne
  exact hb s (by rw [Symbol.spelling_ofChar? hs]; rfl)

/-- No symbol starts with the byte. -/
theorem read_of_no_symbol (h : m.ahead = b :: bs) (hb : ∀ s : Symbol, s.spelling.head? ≠ some b) :
    m.read = match Quote.ofChar? b with
      | some q => (m.skip 1).quoted q m.pos
      | none =>
        if b.isDigit then (m.skip 1).number m.pos
        else if isWordStart b then (m.skip 1).word m.pos
        else (m.skip 1).unrecognized m.pos := by
  rw [read, h]
  simp only [ofPair?_eq_none hb, ofChar?_eq_none hb]
  cases bs <;> rfl

theorem read_of_isDigit (h : m.ahead = b :: bs) (hb : b.isDigit) :
    m.read = (m.skip 1).number m.pos := by
  have hpart := Lexeme.isWordPart_of_isDigit hb
  rw [read_of_no_symbol h (Symbol.head?_spelling_of_isWordPart hpart), Lexeme.ofChar?_eq_none hpart]
  simp only [if_pos hb]

theorem read_of_isWordStart (h : m.ahead = b :: bs) (hb : isWordStart b) :
    m.read = (m.skip 1).word m.pos := by
  have hpart := Lexeme.isWordPart_of_isWordStart hb
  rw [read_of_no_symbol h (Symbol.head?_spelling_of_isWordPart hpart), Lexeme.ofChar?_eq_none hpart]
  simp only [if_neg (Lexeme.not_isDigit_of_isWordStart hb), if_pos hb]

theorem read_mark {q : Quote} (h : m.ahead = q.mark :: bs) :
    m.read = (m.skip 1).quoted q m.pos := by
  rw [read_of_no_symbol h (Symbol.head?_spelling_mark q), Lexeme.ofChar?_mark]

/-- Nothing starts with a byte outside ASCII. -/
theorem read_of_large (h : m.ahead = b :: bs) (hb : 128 ≤ b.toNat) :
    m.read = (m.skip 1).unrecognized m.pos := by
  have hsymbol : ∀ s : Symbol, s.spelling.head? ≠ some b := fun s hs ↦
    Nat.not_lt.2 hb (toNat_lt_of_mem_spelling (List.mem_of_mem_head? hs))
  have hquote : Quote.ofChar? b = none := by
    by_contra hne
    obtain ⟨q, hq⟩ := Option.ne_none_iff_exists'.1 hne
    obtain rfl := Quote.mark_ofChar? hq
    exact Nat.not_lt.2 hb (toNat_mark_lt q)
  have hpart : ¬ isWordPart b := fun hpart ↦ Nat.not_lt.2 hb (toNat_lt_of_isWordPart hpart)
  have hdigit : ¬ b.isDigit := fun h ↦ hpart (Lexeme.isWordPart_of_isDigit h)
  have hword : ¬ isWordStart b := fun h ↦ hpart (Lexeme.isWordPart_of_isWordStart h)
  rw [read_of_no_symbol h hsymbol, hquote]
  simp only [if_neg hdigit, if_neg hword]

end FirstByte

/-! ## A lexeme -/

section Lexemes

variable {m : ByteLexer} {before rest : List Char} {start : Nat}

theorem number_whole {ds : List Char} (h : m.Stands before (ds ++ rest)) (hds : ∀ d ∈ ds, d.isDigit)
    (hrest : (Lexeme.whole ds).EndsBefore rest) :
    m.number start = (m.skip (byteSize ds)).token (.number .numeric) start := by
  rw [number, h.skipWhile_eq .isDigit hds hrest.1]
  simp only
  split
  · rename_i d tail hahead
    rw [h.skip.ahead] at hahead
    obtain ⟨cs, rfl, hcs⟩ := exists_of_bytesOfAll_eq_ascii hahead (by decide)
    obtain ⟨e, es, rfl, hmem⟩ := exists_of_bytesOfAll_eq_cons hcs.symm
    rw [Bytewise.isDigit e d hmem, if_neg (hrest.2 e es rfl)]
  · rfl

theorem number_decimal {ds fs : List Char} (h : m.Stands before (ds ++ '.' :: (fs ++ rest)))
    (hds : ∀ d ∈ ds, d.isDigit) (hfs : Lexeme.IsDigits fs)
    (hrest : (Lexeme.decimal ds fs).EndsBefore rest) :
    m.number start = (m.skip (byteSize (ds ++ '.' :: fs))).token
      (.number (if m.pos + byteSize (ds ++ '.' :: fs) - start < Lexeme.doubleLength then .float
        else .double)) start := by
  obtain ⟨hne, hfs⟩ := hfs
  obtain ⟨f, fs, rfl⟩ := List.exists_cons_of_ne_nil hne
  have hf : f.isDigit := hfs f List.mem_cons_self
  have hpoint : '.'.toNat < 128 := by decide
  have hdigit : f.toNat < 128 := toNat_lt_of_isWordPart (Lexeme.isWordPart_of_isDigit hf)
  rw [number, h.skipWhile_eq .isDigit hds (by simp)]
  have hahead := h.skip.ahead
  rw [List.cons_append, bytesOfAll_cons_of_lt hpoint, bytesOfAll_cons_of_lt hdigit] at hahead
  -- Behind the point there are only the digits of the fraction.
  have hbehind : ((m.skip (byteSize ds)).skip (byteSize ['.'])).Stands (before ++ ds ++ ['.'])
      (f :: fs ++ rest) := h.skip.skip
  have hskip := hbehind.skipWhile_eq .isDigit hfs hrest
  rw [skip_skip, skip_skip, ← byteSize_append, ← byteSize_append, List.append_assoc,
    List.singleton_append] at hskip
  simp only [hahead, if_pos hf]
  rw [skip_skip, show byteSize ds + 1 = byteSize (ds ++ ['.']) by rw [byteSize_append]; rfl]
  simp only [hskip, pos_skip]

theorem word_letters {c : Char} {cs : List Char} (h : m.Stands (before ++ [c]) (cs ++ rest))
    (hcs : ∀ d ∈ cs, isWordPart d) (hrest : (Lexeme.word (c :: cs)).EndsBefore rest) :
    m.word (byteSize before) = some (.ok ((Lexeme.word (c :: cs)).token (byteSize before)),
      m.skip (byteSize cs)) := by
  have hnext := h.skip
  rw [List.append_assoc, List.singleton_append] at hnext
  rw [word, h.skipWhile_eq .isWordPart hcs hrest]
  simp only [hnext.slice?_eq, Option.bind_some]
  exact Stands.token_lexeme (l := .word (c :: cs)) hnext rfl

theorem quoted_content {q : Quote} {content : List Char}
    (h : m.Stands (before ++ [q.mark]) (content ++ q.mark :: rest)) (hcontent : q.mark ∉ content) :
    m.quoted q (byteSize before) =
      some (.ok ((Lexeme.quoted q content).token (byteSize before)),
        m.skip (byteSize (content ++ [q.mark]))) := by
  have hmark := toNat_mark_lt q
  have hrun : ∀ c ∈ content, (c != q.mark) = true := fun c hc ↦
    bne_iff_ne.2 fun heq ↦ hcontent (heq ▸ hc)
  have hclose := h.skip
  have hahead := hclose.ahead
  rw [bytesOfAll_cons_of_lt hmark] at hahead
  have hslice : m.slice? m.pos (m.pos + byteSize content) = some (String.ofList content) := by
    have := hclose.slice?_eq
    rwa [← h.pos] at this
  have hstop : m.pos + byteSize (content ++ [q.mark]) =
      byteSize before + byteSize (Lexeme.quoted q content).spelling := by
    rw [h.pos, Lexeme.spelling, byteSize_append, byteSize_cons q.mark (_ ++ _), byteSize_cons,
      byteSize_nil, Nat.add_zero, Nat.add_assoc]
  have hend : (m.skip (byteSize content)).skip 1 = m.skip (byteSize (content ++ [q.mark])) := by
    rw [skip_skip, byteSize_append, byteSize_cons, utf8Size_of_lt hmark, byteSize_nil]
  rw [quoted, h.skipWhile_eq (.bne hmark) hrun (by simp)]
  simp only [hahead, pos_skip, hstop, hslice, hend]
  rfl

theorem read_symbol {s : Symbol} (h : m.Stands before (s.spelling ++ rest))
    (hrest : (Lexeme.symbol s).EndsBefore rest) :
    m.read =
      some (.ok ((Lexeme.symbol s).token (byteSize before)), m.skip (byteSize s.spelling)) := by
  have htoken := Stands.token_lexeme (l := .symbol s) h.skip rfl
  rw [← h.pos] at htoken ⊢
  have hascii : ∀ c ∈ s.spelling, c.toNat < 128 := fun c hc ↦ toNat_lt_of_mem_spelling hc
  rcases s.spelling_cases with ⟨c, hs, hsymbol⟩ | ⟨c, d, hs, hsymbol⟩
  · rw [hs, List.forall_mem_singleton] at hascii
    have hsize : byteSize s.spelling = 1 := by rw [hs, byteSize_cons, utf8Size_of_lt hascii]; rfl
    have hpair : (bytesOfAll rest).head?.bind (Symbol.ofPair? c) = none := by
      rw [head?_bytesOfAll_bind (.ofPair? c), Option.bind_eq_none_iff]
      exact hrest.1 c hs
    rw [hs, List.singleton_append] at h
    rw [hsize] at htoken ⊢
    rw [read, (h.first hascii).1]
    simp only [hpair, hsymbol]
    exact htoken
  · rw [hs, List.forall_mem_cons, List.forall_mem_singleton] at hascii
    have hsize : byteSize s.spelling = 1 + 1 := by
      rw [hs, byteSize_cons, byteSize_cons, utf8Size_of_lt hascii.1, utf8Size_of_lt hascii.2]
      rfl
    have hpair : (bytesOfAll (d :: rest)).head?.bind (Symbol.ofPair? c) = some s := by
      rw [head?_bytesOfAll_bind (.ofPair? c)]
      exact hsymbol
    rw [hs, List.cons_append, List.singleton_append] at h
    rw [hsize] at htoken ⊢
    rw [read, (h.first hascii.1).1]
    simp only [hpair, skip_skip]
    exact htoken

/-- A lexeme is read as its token. -/
theorem read_lexeme {l : Lexeme} (h : m.Stands before (l.spelling ++ rest)) (hl : l.WellFormed)
    (hrest : l.EndsBefore rest) :
    m.read = some (.ok (l.token (byteSize before)), m.skip (byteSize l.spelling)) := by
  -- What is passed behind the first character of the lexeme is passed behind the lexeme.
  have hbehind : ∀ {c : Char} {cs : List Char}, c.toNat < 128 →
      (m.skip 1).skip (byteSize cs) = m.skip (byteSize (c :: cs)) := by
    intro c cs hc
    rw [skip_skip, byteSize_cons, utf8Size_of_lt hc]
  cases l with
  | symbol s => exact read_symbol h hrest
  | whole digits =>
    have htoken := Stands.token_lexeme (l := .whole digits) h.skip rfl
    obtain ⟨hne, hdigits⟩ := hl
    obtain ⟨d, ds, rfl⟩ := List.exists_cons_of_ne_nil hne
    have hd := hdigits d List.mem_cons_self
    have hascii := toNat_lt_of_isWordPart (Lexeme.isWordPart_of_isDigit hd)
    obtain ⟨hahead, hnext⟩ := h.first hascii
    rw [read_of_isDigit hahead hd,
      number_whole hnext (List.forall_mem_cons.1 hdigits).2 hrest, hbehind hascii, h.pos]
    exact htoken
  | decimal digits fraction =>
    have htoken := Stands.token_lexeme (l := .decimal digits fraction) h.skip rfl
    obtain ⟨⟨hne, hdigits⟩, hfraction⟩ := hl
    obtain ⟨d, ds, rfl⟩ := List.exists_cons_of_ne_nil hne
    have hd := hdigits d List.mem_cons_self
    have hascii := toNat_lt_of_isWordPart (Lexeme.isWordPart_of_isDigit hd)
    rw [Lexeme.spelling, List.append_assoc, List.cons_append] at h
    obtain ⟨hahead, hnext⟩ := h.first hascii
    have hwidth : (m.skip 1).pos + byteSize (ds ++ '.' :: fraction) - m.pos =
        (d :: ds).length + 1 + fraction.length := by
      rw [← Lexeme.byteSize_decimal ⟨hne, hdigits⟩ hfraction, List.cons_append, byteSize_cons,
        utf8Size_of_lt hascii, pos_skip]
      omega
    rw [read_of_isDigit hahead hd,
      number_decimal hnext (List.forall_mem_cons.1 hdigits).2 hfraction hrest, hwidth,
      hbehind hascii, h.pos]
    exact htoken
  | word letters =>
    obtain ⟨c, cs, rfl, hc, hcs⟩ := hl
    have hascii := toNat_lt_of_isWordPart (Lexeme.isWordPart_of_isWordStart hc)
    obtain ⟨hahead, hnext⟩ := h.first hascii
    rw [read_of_isWordStart hahead hc, h.pos, word_letters hnext hcs hrest, hbehind hascii]
    rfl
  | quoted q content =>
    have hmark := toNat_mark_lt q
    have hq : (Lexeme.quoted q content).spelling ++ rest =
        q.mark :: (content ++ q.mark :: rest) := by
      simp [Lexeme.spelling]
    rw [hq] at h
    obtain ⟨hahead, hnext⟩ := h.first hmark
    rw [read_mark hahead, h.pos, quoted_content hnext hl, hbehind hmark]
    rfl

/-- A character that starts no lexeme is looked up in the text. -/
theorem read_unrecognized {c : Char} {cs : List Char} (h : m.Stands before (c :: cs))
    (hscan : Lexeme.scan c cs = .error (.unrecognized c)) :
    m.read = some (.error ⟨byteSize before, .unrecognized c⟩, m.skip 1) := by
  have hanswer : (m.skip 1).unrecognized m.pos =
      some (.error ⟨byteSize before, .unrecognized c⟩, m.skip 1) := by
    change (m.slice? m.pos m.text.utf8ByteSize).map _ = _
    rw [h.slice?_rest, h.pos]
    simp
  rw [← hanswer]
  by_cases hc : c.toNat < 128
  · rcases Lexeme.scan_error_cases hscan with ⟨-, hsymbol, hquote, hdigit, hword⟩ | ⟨q, -, hq, -⟩
    · obtain ⟨hsingle, hpair⟩ := Lexeme.leadingSymbol?_eq_none_iff.1 hsymbol
      have hbytes : (bytesOfAll cs).head?.bind (Symbol.ofPair? c) = none := by
        rwa [head?_bytesOfAll_bind (.ofPair? c), Option.bind_eq_none_iff]
      rw [read, (h.first hc).1]
      simp only [hbytes, hsingle, hquote, if_neg hdigit, if_neg hword]
    · simp at hq
  · obtain ⟨b, bs, hb⟩ := List.exists_cons_of_ne_nil (bytesOf_ne_nil c)
    have hahead := h.ahead
    rw [bytesOfAll_cons, hb, List.cons_append] at hahead
    exact read_of_large hahead (le_of_mem_bytesOf (Nat.not_lt.1 hc) (hb ▸ List.mem_cons_self))

/-- A text without an end is passed up to the end of the source. -/
theorem read_unterminated {q : Quote} {cs : List Char} (h : m.Stands before (q.mark :: cs))
    (hcs : q.mark ∉ cs) :
    m.read =
      some (.error ⟨byteSize before, .unterminated q⟩, m.skip (byteSize (q.mark :: cs))) := by
  have hmark := toNat_mark_lt q
  obtain ⟨hahead, hnext⟩ := h.first hmark
  have hrun : ∀ c ∈ cs, (c != q.mark) = true := fun c hc ↦ bne_iff_ne.2 fun heq ↦ hcs (heq ▸ hc)
  have hend : (m.skip 1).Stands (before ++ [q.mark]) (cs ++ []) := by rwa [List.append_nil]
  rw [read_mark hahead, quoted, hend.skipWhile_eq (.bne hmark) hrun nofun]
  simp only [hend.skip.ahead, bytesOfAll_nil, h.pos]
  rw [skip_skip, byteSize_cons, utf8Size_of_lt hmark]

end Lexemes

/-! ## Blanks and comments -/

section Trivia

variable {m : ByteLexer} {before w rest : List Char}

theorem skipWhile_eq_self {p : Char → Bool} (h : ∀ b ∈ m.ahead.head?, ¬ p b) :
    m.skipWhile p = m := by
  rw [skipWhile]
  cases hahead : m.ahead with
  | nil => rfl
  | cons b bs =>
    rw [hahead] at h
    rw [List.takeWhile_cons_of_neg (h b rfl)]
    rfl

theorem skipTrivia_blank {b : Char} {bs : List Char} (h : m.ahead = b :: bs) (hb : isBlank b) :
    m.skipTrivia = (m.skip 1).skipTrivia := by
  have hblanks : m.skipWhile isBlank = (m.skip 1).skipWhile isBlank := by
    rw [skipWhile, skipWhile, ahead_skip, h, List.takeWhile_cons_of_pos hb, List.length_cons,
      skip_skip, Nat.add_comm]
    rfl
  rw [skipTrivia, hblanks, ← skipTrivia]

theorem skipTrivia_comment {body : List Char} (h : m.Stands before ('/' :: '/' :: body ++ rest))
    (hbody : '\n' ∉ body) (hrest : ∀ c ∈ rest.head?, c = '\n') :
    m.skipTrivia = (m.skip (byteSize ('/' :: '/' :: body))).skipTrivia := by
  have hslash : '/'.toNat < 128 := by decide
  have hahead := h.ahead
  rw [List.cons_append, List.cons_append, bytesOfAll_cons_of_lt hslash,
    bytesOfAll_cons_of_lt hslash] at hahead
  have hblanks : m.skipWhile isBlank = m := skipWhile_eq_self <| by
    rw [hahead]
    rintro b ⟨⟩
    decide
  have hrun : ∀ c ∈ '/' :: '/' :: body, (c != '\n') = true := by
    rw [List.forall_mem_cons, List.forall_mem_cons]
    exact ⟨by decide, by decide, fun c hc ↦ bne_iff_ne.2 fun heq ↦ hbody (heq ▸ hc)⟩
  have hend : ∀ c ∈ rest.head?, ¬ (c != '\n') = true := fun c hc ↦ by simp [hrest c hc]
  rw [skipTrivia, hblanks, if_pos ⟨_, hahead.symm⟩, h.skipWhile_eq (.bne (by decide)) hrun hend]

/-- A place where neither a blank nor a comment starts is not left. -/
theorem skipTrivia_eq_self (hblank : ∀ b ∈ m.ahead.head?, ¬ isBlank b)
    (hslash : ¬ ['/', '/'] <+: m.ahead) : m.skipTrivia = m := by
  rw [skipTrivia, skipWhile_eq_self hblank, if_neg hslash]

theorem skipTrivia_of_startsLexeme (h : m.Stands before rest) (hrest : StartsLexeme rest) :
    m.skipTrivia = m := by
  obtain ⟨c, cs, rfl, hblank, hslash⟩ := hrest
  refine skipTrivia_eq_self (fun b hb ↦ ?_) ?_
  · obtain ⟨bs, hbs⟩ := List.head?_eq_some_iff.1 hb
    obtain ⟨_, _, hc, hmem⟩ := exists_of_bytesOfAll_eq_cons (h.ahead.symm.trans hbs)
    obtain ⟨rfl, -⟩ := List.cons.inj hc
    rwa [Bytewise.isBlank c b hmem]
  · rintro ⟨bs, hbs⟩
    obtain ⟨_, hc, hcs⟩ := exists_of_bytesOfAll_eq_ascii (h.ahead.symm.trans hbs.symm) (by decide)
    obtain ⟨_, hd, -⟩ := exists_of_bytesOfAll_eq_ascii hcs.symm (by decide)
    obtain ⟨rfl, rfl⟩ := List.cons.inj hc
    exact hslash ⟨rfl, hd ▸ rfl⟩

theorem skipTrivia_trivia (h : m.Stands before (w ++ rest)) (hw : Trivia w) :
    m.skipTrivia = (m.skip (byteSize w)).skipTrivia := by
  induction hw generalizing m before with
  | nil => rfl
  | @blank c w hc _ ih =>
    have hascii := toNat_lt_of_isBlank hc
    obtain ⟨hahead, hnext⟩ := h.first hascii
    rw [skipTrivia_blank hahead hc, ih hnext, skip_skip, byteSize_cons, utf8Size_of_lt hascii]
  | @comment body w hbody _ ih =>
    have hcomment : m.Stands before (('/' :: '/' :: body) ++ ('\n' :: (w ++ rest))) := by
      simpa using h
    obtain ⟨hahead, hnext⟩ := hcomment.skip.first (by decide)
    rw [skipTrivia_comment hcomment hbody (by simp), skipTrivia_blank hahead (by decide), ih hnext,
      skip_skip, skip_skip]
    congr 2
    simp only [byteSize_cons, byteSize_append]
    have hnewline : '\n'.utf8Size = 1 := rfl
    omega

theorem skipTrivia_closingTrivia (h : m.Stands before w) (hw : ClosingTrivia w) :
    m.skipTrivia = m.skip (byteSize w) := by
  have hnone : ∀ {before : List Char} {m : ByteLexer}, m.Stands before [] → m.skipTrivia = m := by
    intro before m h
    have hahead : m.ahead = [] := h.ahead
    exact skipTrivia_eq_self (by simp [hahead]) (by simp [hahead])
  obtain ⟨v, tail, rfl, hv, rfl | ⟨body, rfl, hbody⟩⟩ := hw
  · rw [skipTrivia_trivia h hv, hnone h.skip, List.append_nil]
  · have hcomment : (m.skip (byteSize v)).Stands (before ++ v) ('/' :: '/' :: body ++ []) := by
      rw [List.append_nil]
      exact h.skip
    rw [skipTrivia_trivia h hv, skipTrivia_comment hcomment hbody nofun, hnone hcomment.skip,
      skip_skip, byteSize_append]

end Trivia

end ByteLexer

end SvLang
