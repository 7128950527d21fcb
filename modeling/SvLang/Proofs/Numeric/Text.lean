import SvLang.Java
import SvLang.Proofs.Lexing.Scan

/-!
# The text of a number

A number that is written starts with a digit or a minus or has a point in it, so its text is never a
word (`IsNumberText.not_wellFormed_word`); and it is made of the characters of words, points and
minus signs.

What this rests on is that the shortest decimal of a number other than zero has a digit other than
zero (`Decimal.shortest_digits_pos`): no text is reduced to its power of ten.
-/

set_option autoImplicit false

namespace SvLang

/-! ## The shortest decimal is not zero -/

namespace Scaled

/-- The value, its interval and the unit are positive. -/
structure Positive (s : Scaled) : Prop where
  value : 0 < s.value
  low : 0 < s.low
  unit : 0 < s.unit

theorem positive_ofParts {mantissa : Nat} (h : 0 < mantissa) (exponent : Int) :
    (ofParts mantissa exponent).Positive := by
  have hshift : ∀ {n : Nat}, 0 < n → ∀ k : Nat, 0 < n <<< k := by
    intro n hn k
    rw [Nat.shiftLeft_eq]
    exact Nat.mul_pos hn (Nat.two_pow_pos _)
  refine ⟨hshift (by omega) _, hshift ?_ _, hshift Nat.one_pos _⟩
  split <;> omega

theorem tens_pos (n : Nat) : 0 < tens n := Nat.pow_pos (by decide)

namespace Positive

variable {s : Scaled}

theorem inTens (h : s.Positive) (place : Int) : (s.inTens place).Positive :=
  ⟨Nat.mul_pos h.value (tens_pos _), Nat.mul_pos h.low (tens_pos _),
    Nat.mul_pos h.unit (tens_pos _)⟩

/-- Zero is not in the interval of a positive value. -/
theorem pos_of_holds (h : s.Positive) {n : Nat} (hn : s.holds n) : 0 < n := by
  have hlow := h.low
  refine Nat.pos_of_ne_zero ?_
  rintro rfl
  rw [holds, Nat.zero_mul] at hn
  split at hn
  · have hle := (of_decide_eq_true hn).1
    omega
  · have hlt := (of_decide_eq_true hn).1
    omega

/-- On the last grid, which has `maxDigits` digits, the value is at least one unit. -/
theorem unit_le_last (h : s.Positive) :
    (s.inTens (s.point - maxDigits)).unit ≤ (s.inTens (s.point - maxDigits)).value := by
  simp only [Scaled.inTens, maxDigits]
  rw [point]
  split
  · rename_i hle
    generalize hL : (Nat.toDigits 10 (s.value / s.unit)).length = L
    have hq : 10 ^ (L - 1) ≤ s.value / s.unit := by
      rcases Nat.eq_zero_or_pos (L - 1) with hz | hpos
      · rw [hz, Nat.pow_zero]
        exact Nat.div_pos hle h.unit
      · have hlen := Nat.length_toDigits_le_iff (b := 10) (n := s.value / s.unit) (by decide) hpos
        omega
    have hplace : ((L : Int) - (17 : Nat)).toNat = L - 17 := by omega
    rw [hplace]
    calc s.unit * tens (L - 17)
        ≤ s.unit * (s.value / s.unit) := Nat.mul_le_mul_left _
          (Nat.le_trans (Nat.pow_le_pow_right (by decide) (by omega)) hq)
      _ ≤ s.value := Nat.mul_div_le _ _
      _ ≤ s.value * tens _ := Nat.le_mul_of_pos_right _ (tens_pos _)
  · generalize hL : (Nat.toDigits 10 (s.unit / s.value)).length = L
    have hlen := Nat.length_toDigits_le_iff (b := 10) (n := s.unit / s.value) (by decide)
      (Nat.length_toDigits_pos (b := 10) (n := s.unit / s.value))
    have hq : s.unit / s.value < 10 ^ L := by
      rw [hL] at hlen
      omega
    have hplace : ((1 : Int) - L - (17 : Nat)).toNat = 0 := by omega
    have hup : (-((1 : Int) - L - (17 : Nat))).toNat = L + 16 := by omega
    rw [hplace, hup]
    calc s.unit * tens 0
        = s.unit := Nat.mul_one _
      _ ≤ s.value * 10 ^ L := by
          rw [Nat.mul_comm]
          exact Nat.le_of_lt ((Nat.div_lt_iff_lt_mul h.value).1 hq)
      _ ≤ s.value * tens (L + 16) := Nat.mul_le_mul_left _
          (Nat.pow_le_pow_right (by decide) (by omega))

/-- Whatever grid it is found on, the shortest decimal of a positive value is positive. -/
theorem shortestFrom (h : s.Positive) (tie : Tie) (more : Nat) :
    0 < (SvLang.shortestFrom tie s s.point more).digits := by
  induction more with
  | zero => exact Nat.div_pos h.unit_le_last (h.inTens _).unit
  | succ more ih =>
    rw [SvLang.shortestFrom]
    split
    · rename_i n hn
      exact (h.inTens _).pos_of_holds (holds_of_nearest? hn)
    · exact ih

end Positive

end Scaled

theorem Decimal.shortest_digits_pos {mantissa : Nat} (h : 0 < mantissa) (tie : Tie)
    (exponent : Int) : 0 < (Decimal.shortest tie mantissa exponent).digits :=
  (Scaled.positive_ofParts h exponent).shortestFrom tie maxDigits

/-! ## What numbers are written with -/

/-- The characters that numbers are written with. -/
def isNumberPart (c : Char) : Bool := isWordPart c || c = '.' || c = '-'

theorem isNumberPart_of_isDigit {c : Char} (h : c.isDigit) : isNumberPart c := by
  simp [isNumberPart, isWordPart, Char.isAlphanum, h]

/-- The text is made of such characters, and it starts like no word or has a point in it. -/
def IsNumberText (cs : List Char) : Prop :=
  (∀ c ∈ cs, isNumberPart c) ∧ ((∃ c ∈ cs.head?, ¬ isWordStart c) ∨ '.' ∈ cs)

/-- The text of a number is no word. -/
theorem IsNumberText.not_wellFormed_word {cs : List Char} (h : IsNumberText cs) :
    ¬ (Lexeme.word cs).WellFormed := by
  rintro ⟨c, ds, rfl, hc, hds⟩
  rcases h.2 with ⟨d, hd, hstart⟩ | hpoint
  · cases hd
    exact hstart hc
  · have hpart : isWordPart '.' := by
      rcases List.mem_cons.1 hpoint with rfl | hmem
      · exact Lexeme.isWordPart_of_isWordStart hc
      · exact hds _ hmem
    exact absurd hpart (by decide)

namespace Layout

theorem isNumberText_positional {ds : List Char} (hds : ∀ c ∈ ds, c.isDigit) (point : Int) :
    IsNumberText (positional ds point) := by
  have hzero : ∀ n, ∀ c ∈ List.replicate n '0', isNumberPart c := by
    intro n c hc
    rw [List.eq_of_mem_replicate hc]
    decide
  have hdigits : ∀ c ∈ ds, isNumberPart c := fun c hc ↦ isNumberPart_of_isDigit (hds c hc)
  rw [positional]
  split
  · refine ⟨?_, .inr (by simp)⟩
    simp only [List.forall_mem_append]
    exact ⟨⟨List.all_eq_true.1 (by decide), hzero _⟩, hdigits⟩
  · refine ⟨?_, .inr (by simp)⟩
    simp only [List.forall_mem_append]
    refine ⟨⟨⟨fun c hc ↦ hdigits c (List.mem_of_mem_take hc), hzero _⟩,
      List.all_eq_true.1 (by decide)⟩, ?_⟩
    split
    · exact List.all_eq_true.1 (by decide)
    · exact fun c hc ↦ hdigits c (List.mem_of_mem_drop hc)

theorem isNumberText_scientific {l : Layout} (hl : l.signedPower = false) {ds : List Char}
    (hne : ds ≠ []) (hds : ∀ c ∈ ds, c.isDigit) (power : Int) :
    IsNumberText (l.scientific ds power) := by
  cases ds with
  | nil => exact absurd rfl hne
  | cons d ds =>
    rw [List.forall_mem_cons] at hds
    have hd := isNumberPart_of_isDigit hds.1
    have hfraction : ∀ c ∈ ds, isNumberPart c := fun c hc ↦ isNumberPart_of_isDigit (hds.2 c hc)
    have hpower : ∀ c ∈ Nat.toDigits 10 power.natAbs, isNumberPart c := fun c hc ↦
      isNumberPart_of_isDigit (Nat.isDigit_of_mem_toDigits (by decide) (by decide) hc)
    refine ⟨?_, .inl ⟨d, rfl, Lexeme.not_isWordStart_of_isDigit hds.1⟩⟩
    simp only [scientific, List.forall_mem_append, List.take_succ_cons, List.take_zero,
      List.drop_succ_cons, List.drop_zero, List.forall_mem_singleton]
    refine ⟨⟨⟨⟨hd, ?_⟩, by decide⟩, ?_⟩, hpower⟩
    · split
      · exact nofun
      · exact List.forall_mem_cons.2 ⟨by decide, hfraction⟩
    · rw [hl]
      split <;> exact List.all_eq_true.1 (by decide)

/-- A number other than zero has a digit other than zero. -/
theorem dropTrailingZeros_ne_nil {n : Nat} (h : 0 < n) :
    dropTrailingZeros (Nat.toDigits 10 n) ≠ [] := by
  intro hnil
  rw [dropTrailingZeros, List.reverse_eq_nil_iff] at hnil
  have hall := List.any_dropWhile (p := fun c : Char ↦ c = '0')
    (l := (Nat.toDigits 10 n).reverse)
  rw [hnil, List.any_nil, eq_comm, Bool.not_eq_false', List.all_eq_true] at hall
  have hzeros : Nat.toDigits 10 n = List.replicate (Nat.toDigits 10 n).length '0' := by
    refine List.eq_replicate_iff.2 ⟨rfl, fun c hc ↦ ?_⟩
    exact of_decide_eq_true (hall c (List.mem_reverse.2 hc))
  have hn := Nat.ofDigitChars_ten_toDigits (n := n)
  rw [hzeros, Nat.ofDigitChars_replicate_zero, Nat.mul_zero] at hn
  omega

theorem isDigit_of_mem_dropTrailingZeros {n : Nat} {c : Char}
    (h : c ∈ dropTrailingZeros (Nat.toDigits 10 n)) : c.isDigit := by
  rw [dropTrailingZeros, List.mem_reverse] at h
  have hmem := List.mem_reverse.1 (List.dropWhile_subset _ h)
  exact Nat.isDigit_of_mem_toDigits (by decide) (by decide) hmem

theorem isNumberText_writeDecimal {l : Layout} (hl : l.signedPower = false) {d : Decimal}
    (hd : 0 < d.digits) : IsNumberText (l.writeDecimal d) := by
  have hdigits : ∀ c ∈ dropTrailingZeros (Nat.toDigits 10 d.digits), c.isDigit :=
    fun c ↦ isDigit_of_mem_dropTrailingZeros
  rw [writeDecimal]
  split
  · exact isNumberText_positional hdigits _
  · exact isNumberText_scientific hl (dropTrailingZeros_ne_nil hd) hdigits _

theorem isNumberText_minus {cs : List Char} (h : IsNumberText cs) : IsNumberText ('-' :: cs) :=
  ⟨List.forall_mem_cons.2 ⟨by decide, h.1⟩, .inl ⟨'-', rfl, by decide⟩⟩

end Layout

/-- A number in a Java text is written as one. -/
theorem Java.isNumberText_write (x : Float) : IsNumberText (Java.doubleLayout.write x).toList := by
  rw [Layout.write]
  split
  · exact ⟨List.all_eq_true.1 (by decide), .inr (by decide)⟩
  · split
    · exact ⟨List.all_eq_true.1 (by decide), .inr (by decide)⟩
    · exact ⟨List.all_eq_true.1 (by decide), .inr (by decide)⟩
  · rename_i negative mantissa exponent _
    have hmagnitude : IsNumberText (if mantissa = 0 then ['0', '.', '0']
        else Java.doubleLayout.writeDecimal
          (.shortest Java.doubleLayout.tie mantissa exponent)) := by
      split
      · exact ⟨List.all_eq_true.1 (by decide), .inr (by decide)⟩
      · rename_i hne
        exact Layout.isNumberText_writeDecimal rfl
          (Decimal.shortest_digits_pos (Nat.pos_of_ne_zero hne) _ _)
    rw [String.toList_ofList]
    split
    · exact Layout.isNumberText_minus hmagnitude
    · exact hmagnitude

end SvLang
