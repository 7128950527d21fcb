import Mathlib.Data.List.TakeWhile
import SvLang.Numeric.Decimal
import SvLang.Proofs.Lexing.Scan

/-!
# Numbers as they are written

A `Numeral` is a number as programs write it: digits, or digits, a point and digits.  Each is one
lexeme, and its text always reads as a binary64 value (`Numeral.readFloat?_spelling`), so it always
has a `value`.
-/

set_option autoImplicit false

namespace SvLang

/-! ## Reading digits -/

namespace Decimal

/-- Text that starts with a digit has no sign, and it is none of the words for special values. -/
theorem readFloat?_of_isDigit {c : Char} (hc : c.isDigit) (cs : List Char) :
    readFloat? (c :: cs) = (ofChars? (c :: cs)).map toFloat := by
  have hsign : splitSign (c :: cs) = (false, c :: cs) := by
    rw [splitSign.eq_def]
    split
    · rename_i h
      cases h
      exact absurd hc (by decide)
    · rename_i h
      cases h
      exact absurd hc (by decide)
    · rfl
  have hlower : c.toLower = c := by
    rw [Char.isDigit, Bool.and_eq_true, decide_eq_true_iff, decide_eq_true_iff] at hc
    refine dif_neg fun h ↦ ?_
    have hle := UInt32.le_trans h.1 hc.2
    exact absurd hle (by decide)
  have hspecial : special? (c :: cs) = none := by
    have hne : ∀ d tail, ¬ d.isDigit → (c :: cs).map Char.toLower ≠ d :: tail := by
      intro d tail hd h
      rw [List.map_cons, hlower] at h
      obtain ⟨rfl, -⟩ := List.cons.inj h
      exact hd hc
    have hi : ¬ 'i'.isDigit := by decide
    have hn : ¬ 'n'.isDigit := by decide
    rw [special?]
    simp only [hne _ _ hi, hne _ _ hn, or_self, if_false]
  rw [readFloat?, hsign]
  simp only [hspecial, Option.none_or, Bool.false_eq_true, if_false, Option.map_id']

theorem ofChars?_digits {ds : List Char} (hds : Lexeme.IsDigits ds) :
    ofChars? ds = some ⟨ofDigits ds, 0⟩ := by
  rw [ofChars?, List.takeWhile_eq_self_iff.2 hds.2, List.dropWhile_eq_nil_iff.2 hds.2]
  simp [hds.1, exponent?]

/-- Digits read as the whole number that they write, rounded. -/
theorem readFloat?_digits {ds : List Char} (hds : Lexeme.IsDigits ds) :
    readFloat? ds = some (toFloat ⟨ofDigits ds, 0⟩) := by
  obtain ⟨d, tail, rfl⟩ := List.exists_cons_of_ne_nil hds.1
  rw [readFloat?_of_isDigit (hds.2 d List.mem_cons_self), ofChars?_digits hds]
  rfl

theorem ofChars?_fraction {ds fs : List Char} (hds : Lexeme.IsDigits ds)
    (hfs : Lexeme.IsDigits fs) :
    ofChars? (ds ++ '.' :: fs) = some ⟨ofDigits (ds ++ fs), -fs.length⟩ := by
  have hpoint : ∀ d ∈ ('.' :: fs).head?, ¬ d.isDigit := by simp
  rw [ofChars?, takeWhile_append_run hds.2 hpoint, dropWhile_append_run hds.2 hpoint]
  simp [List.takeWhile_eq_self_iff.2 hfs.2, List.dropWhile_eq_nil_iff.2 hfs.2, hds.1, exponent?]

end Decimal

/-! ## Numerals -/

/-- A number as it is written. -/
inductive Numeral where
  | whole (digits : List Char) (h : Lexeme.IsDigits digits)
  | decimal (digits fraction : List Char) (h : Lexeme.IsDigits digits)
      (hf : Lexeme.IsDigits fraction)

namespace Numeral

/-- The one lexeme that the number is. -/
def lexeme : Numeral → Lexeme
  | whole ds _ => .whole ds
  | decimal ds fs _ _ => .decimal ds fs

/-- The characters of the number. -/
def spelling (n : Numeral) : List Char := n.lexeme.spelling

/-- The class of the number. -/
def width : Numeral → Width
  | whole .. => .numeric
  | decimal ds fs _ _ =>
    if ds.length + 1 + fs.length < Lexeme.doubleLength then .float else .double

theorem wellFormed_lexeme (n : Numeral) : n.lexeme.WellFormed := by
  cases n with
  | whole _ h => exact h
  | decimal _ _ h hf => exact ⟨h, hf⟩

theorem kind_lexeme (n : Numeral) : n.lexeme.kind = .number n.width := by
  cases n <;> rfl

theorem text_lexeme (n : Numeral) : n.lexeme.text = n.spelling := by
  cases n <;> rfl

/-- Digits end in front of whatever is neither a digit nor a point. -/
theorem endsBefore_lexeme (n : Numeral) {c : Char} {rest : List Char} (hc : ¬ c.isDigit)
    (hpoint : c ≠ '.') : n.lexeme.EndsBefore (c :: rest) := by
  have hhead : ∀ d ∈ (c :: rest).head?, ¬ d.isDigit := by simpa using hc
  cases n with
  | whole =>
    refine ⟨hhead, ?_⟩
    intro d cs h
    exact absurd (List.cons.inj h).1 hpoint
  | decimal => exact hhead

theorem isSome_readFloat? (n : Numeral) : (Decimal.readFloat? n.spelling).isSome := by
  cases n with
  | whole ds h => exact Option.isSome_iff_exists.2 ⟨_, Decimal.readFloat?_digits h⟩
  | decimal ds fs h hf =>
    obtain ⟨d, tail, rfl⟩ := List.exists_cons_of_ne_nil h.1
    have hread : Decimal.readFloat? (d :: tail ++ '.' :: fs) =
        (Decimal.ofChars? (d :: tail ++ '.' :: fs)).map Decimal.toFloat :=
      Decimal.readFloat?_of_isDigit (h.2 d List.mem_cons_self) _
    rw [Decimal.ofChars?_fraction h hf] at hread
    exact Option.isSome_iff_exists.2 ⟨_, hread⟩

/-- The value that the number reads as. -/
def value (n : Numeral) : Float := (Decimal.readFloat? n.spelling).get n.isSome_readFloat?

theorem readFloat?_spelling (n : Numeral) : Decimal.readFloat? n.spelling = some n.value :=
  (Option.some_get _).symm

end Numeral

end SvLang
