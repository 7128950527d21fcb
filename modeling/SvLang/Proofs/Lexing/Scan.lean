import SvLang.Lexer

/-!
# A lexeme is read back where it ends

A lexeme is `WellFormed` if it can be written, and it `EndsBefore` some characters if they do not
make it longer.  `scan_spelling` says that these two conditions are all it takes to read a lexeme
back from its spelling.
-/

set_option autoImplicit false

namespace SvLang

/-! ## Runs of characters of one class -/

section Runs

variable {α : Type} {p : α → Bool} {as rest : List α}

/-- A run of one class ends in front of an element that is not of the class. -/
theorem takeWhile_append_run (has : ∀ a ∈ as, p a) (hrest : ∀ a ∈ rest.head?, ¬ p a) :
    (as ++ rest).takeWhile p = as := by
  rw [List.takeWhile_append_of_pos has]
  cases rest with
  | nil => rw [List.takeWhile_nil, List.append_nil]
  | cons a rest => rw [List.takeWhile_cons_of_neg (hrest a rfl), List.append_nil]

theorem dropWhile_append_run (has : ∀ a ∈ as, p a) (hrest : ∀ a ∈ rest.head?, ¬ p a) :
    (as ++ rest).dropWhile p = rest := by
  rw [List.dropWhile_append_of_pos has]
  cases rest with
  | nil => rfl
  | cons a rest => rw [List.dropWhile_cons_of_neg (hrest a rfl)]

end Runs

/-! ## Symbols -/

namespace Symbol

/-- A symbol is found by the one or two characters that it is written with. -/
theorem spelling_cases (s : Symbol) :
    (∃ c, s.spelling = [c] ∧ ofChar? c = some s) ∨
      ∃ c d, s.spelling = [c, d] ∧ ofPair? c d = some s := by
  cases s with
  | plusAssign | minusAssign | starAssign | slashAssign | plusPlus | minusMinus | equal |
    notEqual => exact .inr ⟨_, _, rfl, rfl⟩
  | _ => exact .inl ⟨_, rfl, rfl⟩

/-- No symbol starts with a character that words are made of. -/
theorem head?_spelling_of_isWordPart {c : Char} (hc : isWordPart c) (s : Symbol) :
    s.spelling.head? ≠ some c := by
  rintro h
  cases s <;> cases h <;> exact absurd hc (by decide)

/-- No symbol starts with a mark of a quoted text. -/
theorem head?_spelling_mark (q : Quote) (s : Symbol) : s.spelling.head? ≠ some q.mark := by
  cases q <;> cases s <;> decide

end Symbol

namespace Lexeme

/-! ## Lexemes that can be written -/

/-- One digit or more. -/
def IsDigits (cs : List Char) : Prop := cs ≠ [] ∧ ∀ c ∈ cs, c.isDigit

/-- The lexeme keeps to the classes of characters that it is made of. -/
def WellFormed : Lexeme → Prop
  | symbol _ => True
  | whole digits => IsDigits digits
  | decimal digits fraction => IsDigits digits ∧ IsDigits fraction
  | word letters => ∃ c cs, letters = c :: cs ∧ isWordStart c ∧ ∀ d ∈ cs, isWordPart d
  | quoted q content => q.mark ∉ content

theorem wellFormed_symbol (s : Symbol) : (symbol s).WellFormed := trivial

/-- A text that is a word: a letter or underscore, and then letters, digits and underscores. -/
def IsWord (x : String) : Prop := (word x.toList).WellFormed

/-- A word that names something: it is neither a type nor a keyword. -/
def IsName (x : String) : Prop := IsWord x ∧ TokenKind.ofWord x = .identifier

/-- The lexeme does not go on in the characters that follow.  A slash in front of another one would
start a comment. -/
def EndsBefore (l : Lexeme) (rest : List Char) : Prop :=
  match l with
  | symbol s => (∀ c, s.spelling = [c] → ∀ d ∈ rest.head?, Symbol.ofPair? c d = none) ∧
      (s = .slash → rest.head? ≠ some '/')
  | whole _ => (∀ d ∈ rest.head?, ¬ d.isDigit) ∧ ∀ d cs, rest = '.' :: d :: cs → ¬ d.isDigit
  | decimal .. => ∀ d ∈ rest.head?, ¬ d.isDigit
  | word _ => ∀ d ∈ rest.head?, ¬ isWordPart d
  | quoted .. => True

/-! ## Reading them back -/

theorem isWordPart_of_isDigit {c : Char} (h : c.isDigit) : isWordPart c := by
  simp [isWordPart, Char.isAlphanum, h]

theorem isWordPart_of_isWordStart {c : Char} (h : isWordStart c) : isWordPart c := by
  rw [isWordStart, Bool.or_eq_true] at h
  rw [isWordPart, Char.isAlphanum]
  rcases h with h | h <;> simp [h]

theorem not_isDigit_of_isWordStart {c : Char} (h : isWordStart c) : ¬ c.isDigit := by
  rw [isWordStart, Bool.or_eq_true, decide_eq_true_iff] at h
  rcases h with h | rfl
  · have hletter : c.isAlpha = (decide ('A'.val ≤ c.val ∧ c.val ≤ 'Z'.val) ||
        (decide ('a'.val ≤ c.val) && decide (c.val ≤ 'z'.val))) := rfl
    simp only [hletter, Char.isDigit, Bool.or_eq_true, Bool.and_eq_true, decide_eq_true_iff,
      UInt32.le_iff_toNat_le] at h ⊢
    simp at h ⊢
    omega
  · decide

theorem not_isWordStart_of_isDigit {c : Char} (h : c.isDigit) : ¬ isWordStart c :=
  fun hc ↦ not_isDigit_of_isWordStart hc h

theorem leadingSymbol?_spelling {s : Symbol} {rest : List Char} (h : (symbol s).EndsBefore rest) :
    ∃ c cs, s.spelling ++ rest = c :: cs ∧ leadingSymbol? c cs = some (s, rest) := by
  rcases s.spelling_cases with ⟨c, hs, hc⟩ | ⟨c, d, hs, hcd⟩
  · refine ⟨c, rest, by rw [hs]; rfl, ?_⟩
    cases rest with
    | nil => rw [leadingSymbol?, hc]; rfl
    | cons d rest =>
      have hpair : Symbol.ofPair? c d = none := h.1 c hs d rfl
      rw [leadingSymbol?, hpair, hc]
      rfl
  · refine ⟨c, d :: rest, by rw [hs]; rfl, ?_⟩
    rw [leadingSymbol?, hcd]

theorem leadingSymbol?_eq_none {c : Char} (hc : ∀ s : Symbol, s.spelling.head? ≠ some c)
    (cs : List Char) : leadingSymbol? c cs = none := by
  cases h : leadingSymbol? c cs with
  | none => rfl
  | some r =>
    have hs := spelling_append_of_leadingSymbol? h
    obtain ⟨d, ds, hd⟩ := List.exists_cons_of_ne_nil r.1.spelling_ne_nil
    rw [hd, List.cons_append] at hs
    have hhead : r.1.spelling.head? = some c := by rw [hd, List.head?_cons, (List.cons.inj hs).1]
    exact absurd hhead (hc r.1)

theorem ofChar?_mark (q : Quote) : Quote.ofChar? q.mark = some q := by
  cases q <;> decide

/-- What words are made of opens no text. -/
theorem ofChar?_eq_none {c : Char} (hc : isWordPart c) : Quote.ofChar? c = none := by
  cases h : Quote.ofChar? c with
  | none => rfl
  | some q =>
    have hq := Quote.mark_ofChar? h
    subst hq
    cases q <;> exact absurd hc (by decide)

theorem leadingNumber_whole {digits rest : List Char} (hd : IsDigits digits)
    (h : (whole digits).EndsBefore rest) :
    leadingNumber (digits ++ rest) = (whole digits, rest) := by
  rw [leadingNumber, takeWhile_append_run hd.2 h.1, dropWhile_append_run hd.2 h.1]
  split
  · rw [if_neg (h.2 _ _ rfl)]
  · rfl

/-- A point belongs to a number if a digit follows. -/
theorem leadingNumber_point {digits : List Char} {f : Char} (hd : IsDigits digits)
    (hf : f.isDigit) (cs : List Char) :
    leadingNumber (digits ++ '.' :: f :: cs) =
      (decimal digits (f :: cs.takeWhile Char.isDigit), cs.dropWhile Char.isDigit) := by
  have hpoint : ∀ d ∈ ('.' :: f :: cs).head?, ¬ d.isDigit := by simp
  rw [leadingNumber, takeWhile_append_run hd.2 hpoint, dropWhile_append_run hd.2 hpoint]
  simp only [if_pos hf]

theorem leadingNumber_decimal {digits fraction rest : List Char} (hd : IsDigits digits)
    (hf : IsDigits fraction) (h : (decimal digits fraction).EndsBefore rest) :
    leadingNumber (digits ++ '.' :: (fraction ++ rest)) = (decimal digits fraction, rest) := by
  obtain ⟨hne, hf⟩ := hf
  cases fraction with
  | nil => exact absurd rfl hne
  | cons f fs =>
    rw [List.forall_mem_cons] at hf
    rw [List.cons_append, leadingNumber_point hd hf.1, takeWhile_append_run hf.2 h,
      dropWhile_append_run hf.2 h]

theorem leadingText_quoted {q : Quote} {content : List Char} (h : q.mark ∉ content)
    (rest : List Char) :
    leadingText q (content ++ q.mark :: rest) = .ok (quoted q content, rest) := by
  have hcontent : ∀ c ∈ content, (c != q.mark) = true := by
    intro c hc
    rw [bne_iff_ne]
    rintro rfl
    exact h hc
  have hmark : ∀ c ∈ (q.mark :: rest).head?, ¬ (c != q.mark) = true := by simp
  rw [leadingText, dropWhile_append_run hcontent hmark, takeWhile_append_run hcontent hmark]

theorem isWordPart_of_mem {x : String} (hx : IsWord x) {c : Char} (hc : c ∈ x.toList) :
    isWordPart c := by
  obtain ⟨d, ds, hd, hstart, hpart⟩ := hx
  rw [hd] at hc
  rcases List.mem_cons.1 hc with rfl | hmem
  · exact isWordPart_of_isWordStart hstart
  · exact hpart c hmem

theorem not_mem_of_isWord {x : String} (hx : IsWord x) {c : Char} (hc : ¬ isWordPart c) :
    c ∉ x.toList :=
  fun hmem ↦ hc (isWordPart_of_mem hx hmem)

/-! What the first character says about the lexeme that is read. -/

theorem scan_of_isDigit {c : Char} (hc : c.isDigit) (cs : List Char) :
    scan c cs = .ok (leadingNumber (c :: cs)) := by
  have hpart := isWordPart_of_isDigit hc
  rw [scan, leadingSymbol?_eq_none (Symbol.head?_spelling_of_isWordPart hpart),
    ofChar?_eq_none hpart]
  simp only [if_pos hc]

theorem scan_of_isWordStart {c : Char} (hc : isWordStart c) (cs : List Char) :
    scan c cs = .ok (word (c :: cs.takeWhile isWordPart), cs.dropWhile isWordPart) := by
  have hpart := isWordPart_of_isWordStart hc
  rw [scan, leadingSymbol?_eq_none (Symbol.head?_spelling_of_isWordPart hpart),
    ofChar?_eq_none hpart]
  simp only [if_neg (not_isDigit_of_isWordStart hc), if_pos hc]

theorem scan_mark (q : Quote) (cs : List Char) : scan q.mark cs = leadingText q cs := by
  rw [scan, leadingSymbol?_eq_none (Symbol.head?_spelling_mark q), ofChar?_mark]

/-- **A lexeme is read back from its spelling**, wherever what follows does not make it longer. -/
theorem scan_spelling {l : Lexeme} {rest : List Char} (hl : l.WellFormed)
    (hrest : l.EndsBefore rest) :
    ∃ c cs, l.spelling ++ rest = c :: cs ∧ scan c cs = .ok (l, rest) := by
  have hdigits : ∀ {ds tail : List Char}, IsDigits ds → leadingNumber (ds ++ tail) = (l, rest) →
      ∃ c cs, ds ++ tail = c :: cs ∧ scan c cs = .ok (l, rest) := by
    intro ds tail hds hnumber
    obtain ⟨hne, hds⟩ := hds
    cases ds with
    | nil => exact absurd rfl hne
    | cons d ds =>
      exact ⟨d, ds ++ tail, rfl,
        (scan_of_isDigit (hds d List.mem_cons_self) _).trans (congrArg _ hnumber)⟩
  cases l with
  | symbol s =>
    obtain ⟨c, cs, hcs, hs⟩ := leadingSymbol?_spelling hrest
    exact ⟨c, cs, hcs, by rw [scan, hs]⟩
  | whole digits => exact hdigits hl (leadingNumber_whole hl hrest)
  | decimal digits fraction =>
    obtain ⟨c, cs, hcs, hscan⟩ := hdigits hl.1 (leadingNumber_decimal hl.1 hl.2 hrest)
    refine ⟨c, cs, ?_, hscan⟩
    rw [← hcs, spelling, List.append_assoc, List.cons_append]
  | word letters =>
    obtain ⟨c, cs, rfl, hc, hcs⟩ := hl
    refine ⟨c, cs ++ rest, rfl, ?_⟩
    rw [scan_of_isWordStart hc, takeWhile_append_run hcs hrest, dropWhile_append_run hcs hrest]
  | quoted q content =>
    refine ⟨q.mark, content ++ q.mark :: rest, by simp [spelling], ?_⟩
    rw [scan_mark]
    exact leadingText_quoted hl rest

/-! ## What is read can be written -/

theorem isDigits_takeWhile {c : Char} (hc : c.isDigit) (cs : List Char) :
    IsDigits (c :: cs.takeWhile Char.isDigit) := by
  refine ⟨List.cons_ne_nil _ _, ?_⟩
  rw [List.forall_mem_cons]
  exact ⟨hc, fun d hd ↦ List.all_eq_true.1 List.all_takeWhile d hd⟩

theorem wellFormed_leadingNumber {c : Char} (hc : c.isDigit) (cs : List Char) :
    (leadingNumber (c :: cs)).1.WellFormed := by
  rw [leadingNumber, List.takeWhile_cons_of_pos hc]
  split
  · split
    · rename_i hd
      exact ⟨isDigits_takeWhile hc cs, isDigits_takeWhile hd _⟩
    · exact isDigits_takeWhile hc cs
  · exact isDigits_takeWhile hc cs

theorem wellFormed_of_leadingText {q : Quote} {cs rest : List Char} {l : Lexeme}
    (h : leadingText q cs = .ok (l, rest)) : l.WellFormed := by
  rw [leadingText] at h
  split at h
  · cases h
    intro hmem
    have hmark := List.all_eq_true.1 List.all_takeWhile _ hmem
    exact absurd rfl (bne_iff_ne.1 hmark)
  · cases h

/-- Every lexeme that is read can be written. -/
theorem wellFormed_of_scan {c : Char} {cs rest : List Char} {l : Lexeme}
    (h : scan c cs = .ok (l, rest)) : l.WellFormed := by
  rw [scan] at h
  split at h
  · cases h
    exact trivial
  · split at h
    · exact wellFormed_of_leadingText h
    · split at h
      · rename_i hc
        have hn := wellFormed_leadingNumber hc cs
        rw [Except.ok.inj h] at hn
        exact hn
      · split at h
        · rename_i hc
          cases h
          exact ⟨c, _, rfl, hc, fun d hd ↦ List.all_eq_true.1 List.all_takeWhile d hd⟩
        · cases h

end Lexeme

end SvLang
