import SvLang.Numeric.Decimal
import SvLang.Proofs.Lexing.Scan

/-!
# The texts that are numbers

`Decimal.readFloat?` says what a text is read as.  `Decimal.FloatText` says which texts are read at
all, as a grammar and without a word about reading: an optional sign, digits with at most one point
and an optional exponent, or a sign and one of three words.  The two agree
(`isSome_readFloat?_iff`).
-/

set_option autoImplicit false

namespace SvLang.Decimal

open Lexeme (IsDigits)

/-! ## The grammar -/

/-- A plus, a minus or nothing. -/
def IsSign (s : List Char) : Prop := s = [] ∨ s = ['+'] ∨ s = ['-']

/-- Digits with at most one point before, among or behind them. -/
inductive Mantissa : List Char → Prop where
  | whole {ds : List Char} (h : IsDigits ds) : Mantissa ds
  | point {ds fs : List Char} (hds : ∀ d ∈ ds, d.isDigit) (hfs : ∀ f ∈ fs, f.isDigit)
      (hne : ds ++ fs ≠ []) : Mantissa (ds ++ '.' :: fs)

/-- A letter `e`, a sign and digits, or nothing. -/
inductive Exponent : List Char → Prop where
  | none : Exponent []
  | some {e : Char} {s ds : List Char} (he : e = 'e' ∨ e = 'E') (hs : IsSign s)
      (hds : IsDigits ds) : Exponent (e :: (s ++ ds))

/-- One of the words for values that no digits denote, in any mixture of cases. -/
def IsSpecial (w : List Char) : Prop :=
  w.map Char.toLower ∈ [['i', 'n', 'f'], ['i', 'n', 'f', 'i', 'n', 'i', 't', 'y'], ['n', 'a', 'n']]

/-- The text of a number. -/
inductive FloatText : List Char → Prop where
  | number {s m e : List Char} (hs : IsSign s) (hm : Mantissa m) (he : Exponent e) :
      FloatText (s ++ (m ++ e))
  | special {s w : List Char} (hs : IsSign s) (hw : IsSpecial w) : FloatText (s ++ w)

/-! ## Signs -/

/-- The characters do not start with a sign. -/
def Unsigned (cs : List Char) : Prop := ∀ c ∈ cs.head?, c ≠ '+' ∧ c ≠ '-'

theorem exists_sign (cs : List Char) : ∃ s, IsSign s ∧ cs = s ++ (splitSign cs).2 := by
  rw [splitSign.eq_def]
  split
  · exact ⟨['-'], .inr (.inr rfl), rfl⟩
  · exact ⟨['+'], .inr (.inl rfl), rfl⟩
  · exact ⟨[], .inl rfl, rfl⟩

theorem splitSign_append {s cs : List Char} (hs : IsSign s) (hcs : Unsigned cs) :
    (splitSign (s ++ cs)).2 = cs := by
  rcases hs with rfl | rfl | rfl
  · rw [List.nil_append, splitSign.eq_def]
    split
    · exact absurd rfl (hcs _ rfl).2
    · exact absurd rfl (hcs _ rfl).1
    · rfl
  · rfl
  · rfl

theorem ne_of_isDigit {c d : Char} (hc : c.isDigit) (hd : ¬ d.isDigit) : c ≠ d := by
  rintro rfl
  exact hd hc

theorem unsigned_of_isDigits {ds : List Char} (h : IsDigits ds) (cs : List Char) :
    Unsigned (ds ++ cs) := by
  obtain ⟨hne, hds⟩ := h
  obtain ⟨d, ds, rfl⟩ := List.exists_cons_of_ne_nil hne
  rintro c ⟨⟩
  have hd := hds d List.mem_cons_self
  exact ⟨ne_of_isDigit hd (by decide), ne_of_isDigit hd (by decide)⟩

theorem Mantissa.unsigned {m : List Char} (hm : Mantissa m) (e : List Char) :
    Unsigned (m ++ e) := by
  cases hm with
  | whole h => exact unsigned_of_isDigits h e
  | @point ds fs hds _ _ =>
    cases ds with
    | nil =>
      rintro c ⟨⟩
      decide
    | cons d ds =>
      rw [List.append_assoc]
      exact unsigned_of_isDigits ⟨List.cons_ne_nil _ _, hds⟩ _

theorem IsSpecial.unsigned {w : List Char} (hw : IsSpecial w) : Unsigned w := by
  rintro c hc
  obtain ⟨cs, rfl⟩ := List.head?_eq_some_iff.1 hc
  constructor
  · rintro rfl
    exact absurd hw (by simp [IsSpecial])
  · rintro rfl
    exact absurd hw (by simp [IsSpecial])

/-! ## The parts of a number -/

theorem isSome_special?_iff {w : List Char} : (special? w).isSome ↔ IsSpecial w := by
  rw [special?, IsSpecial]
  simp only [List.mem_cons, List.not_mem_nil, or_false]
  split
  · rename_i h
    exact iff_of_true rfl (h.elim .inl fun h ↦ .inr (.inl h))
  · rename_i h
    rw [not_or] at h
    split <;> simp_all

theorem isSome_exponent?_iff {cs : List Char} : (exponent? cs).isSome ↔ Exponent cs := by
  constructor
  · intro h
    rcases cs with _ | ⟨e, cs⟩
    · exact .none
    rw [exponent?] at h
    split at h
    · rename_i he
      obtain ⟨s, hs, hcs⟩ := exists_sign cs
      simp only at h
      split at h
      · rename_i hdigits
        rw [hcs]
        exact .some he hs ⟨hdigits.1, List.all_eq_true.1 hdigits.2⟩
      · simp at h
    · simp at h
  · rintro (_ | ⟨he, hs, hds⟩)
    · rfl
    · have hsplit := splitSign_append hs (by simpa using unsigned_of_isDigits hds [])
      rw [exponent?, if_pos he]
      simp only [hsplit]
      rw [if_pos ⟨hds.1, List.all_eq_true.2 hds.2⟩]
      rfl

/-- An exponent is not taken for more digits. -/
theorem Exponent.not_isDigit {cs : List Char} (h : Exponent cs) : ∀ c ∈ cs.head?, ¬ c.isDigit := by
  rcases h with _ | ⟨he, -, -⟩
  · simp
  · rintro c ⟨⟩
    rcases he with rfl | rfl <;> decide

theorem isSome_ofChars?_iff {cs : List Char} :
    (ofChars? cs).isSome ↔ ∃ m e, cs = m ++ e ∧ Mantissa m ∧ Exponent e := by
  have hdigits : ∀ as : List Char, ∀ c ∈ as.takeWhile Char.isDigit, c.isDigit := fun as ↦
    List.all_eq_true.1 List.all_takeWhile
  constructor
  · intro h
    have hcs := List.takeWhile_append_dropWhile (p := Char.isDigit) (l := cs)
    rw [ofChars?] at h
    simp only at h
    split at h
    · rename_i rest heq
      split at h
      · simp at h
      rename_i hne
      rw [Option.isSome_map, isSome_exponent?_iff] at h
      refine ⟨_, _, ?_, .point (hdigits cs) (hdigits rest) hne, h⟩
      rw [List.append_assoc, List.cons_append, List.takeWhile_append_dropWhile, ← heq, hcs]
    · split at h
      · simp at h
      rename_i hne
      rw [List.append_nil] at hne
      rw [Option.isSome_map, isSome_exponent?_iff] at h
      exact ⟨_, _, hcs.symm, .whole ⟨hne, hdigits cs⟩, h⟩
  · rintro ⟨m, e, rfl, hm, he⟩
    have hnot := he.not_isDigit
    obtain ⟨n, hn⟩ := Option.isSome_iff_exists.1 (isSome_exponent?_iff.2 he)
    cases hm with
    | whole h =>
      rw [ofChars?, takeWhile_append_run h.2 hnot, dropWhile_append_run h.2 hnot]
      simp only
      split
      · obtain _ | ⟨hpoint | hpoint, -, -⟩ := he <;> exact absurd hpoint (by decide)
      · simp [h.1, hn]
    | @point ds fs hds hfs hne =>
      have hpoint : ∀ d ∈ ('.' :: fs ++ e).head?, ¬ d.isDigit := by simp
      rw [List.append_assoc, ofChars?, takeWhile_append_run hds hpoint,
        dropWhile_append_run hds hpoint]
      simp [takeWhile_append_run hfs hnot, dropWhile_append_run hfs hnot, hn, hne]

/-! ## The whole text -/

/-- **A text is read as a number if and only if the grammar has it.** -/
theorem isSome_readFloat?_iff {cs : List Char} : (readFloat? cs).isSome ↔ FloatText cs := by
  have hread : (readFloat? cs).isSome ↔
      IsSpecial (splitSign cs).2 ∨ ∃ m e, (splitSign cs).2 = m ++ e ∧ Mantissa m ∧ Exponent e := by
    rw [readFloat?, ← isSome_special?_iff, ← isSome_ofChars?_iff]
    simp
  rw [hread]
  constructor
  · obtain ⟨s, hs, hcs⟩ := exists_sign cs
    rintro (hw | ⟨m, e, heq, hm, he⟩)
    · rw [hcs]
      exact .special hs hw
    · rw [hcs, heq]
      exact .number hs hm he
  · rintro (⟨hs, hm, he⟩ | ⟨hs, hw⟩)
    · rw [splitSign_append hs (hm.unsigned _)]
      exact .inr ⟨_, _, rfl, hm, he⟩
    · rw [splitSign_append hs hw.unsigned]
      exact .inl hw

end SvLang.Decimal
