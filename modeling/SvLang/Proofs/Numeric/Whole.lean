import Mathlib.Algebra.Group.Nat.Defs
import SvLang.Proofs.Calculator.Numeral

/-!
# Whole numbers are read back exactly

A whole number below `2 ^ 53` that is written in decimal reads as the value that it is
(`Decimal.readFloat?_toDigits`).  No rounding happens on the way: its mantissa, shifted up to the
normal place, is kept by every step of the built-in arithmetic (`shiftToTargetExponent_normal`), and
sign, mantissa and exponent leave no choice of the bits (`finite_of_parts`).
-/

set_option autoImplicit false

namespace SvLang

namespace Binary64

open Float.Model Float.Model.UnpackedFloat

/-- Doubling a number raises its logarithm by one. -/
theorem log2_mul_two_pow {n : Nat} (hn : 0 < n) (k : Nat) : (n * 2 ^ k).log2 = n.log2 + k := by
  have hpos : 0 < n * 2 ^ k := Nat.mul_pos hn (Nat.two_pow_pos k)
  refine (Nat.log2_eq_iff (Nat.ne_of_gt hpos)).2 ⟨?_, ?_⟩
  · rw [Nat.pow_add]
    exact Nat.mul_le_mul_right _ (Nat.log2_self_le (Nat.ne_of_gt hn))
  · rw [Nat.add_right_comm, Nat.pow_add]
    exact Nat.mul_lt_mul_of_pos_right Nat.lt_log2_self (Nat.two_pow_pos k)

/-! ## Normal values -/

/-- A mantissa in its normal place, and an exponent in range. -/
structure IsNormal (m : Nat) (e : Int) : Prop where
  low : 2 ^ 52 ≤ m
  high : m < 2 ^ 53
  minExponent : -1074 ≤ e
  maxExponent : e ≤ 971

namespace IsNormal

variable {m : Nat} {e : Int}

theorem pos (h : IsNormal m e) : 0 < m := Nat.lt_of_lt_of_le (Nat.two_pow_pos 52) h.low

theorem log2 (h : IsNormal m e) : m.log2 = 52 :=
  (Nat.log2_eq_iff (Nat.ne_of_gt h.pos)).2 ⟨h.low, h.high⟩

end IsNormal

/-- The positive value `m · 2 ^ e`. -/
def ofNormal (m : Nat) (e : Int) (h : IsNormal m e) : Float := ⟨pack (.finite .positive m e h.pos)⟩

theorem unpackSign_packComponents (s : Sign) (e : BitVec 11) (m : BitVec 52) :
    Sign.ofBitVec (unpackSign (packComponents .binary64 s e m)) = s := by
  have hfields : unpackSign (packComponents .binary64 s e m) =
      (s.toBitVec ++ e ++ m).extractLsb' 63 1 := rfl
  rw [hfields, BitVec.extractLsb'_append_eq_of_le (by decide),
    BitVec.extractLsb'_append_eq_of_le (by decide)]
  cases s <;> rfl

section Normal

variable {m : Nat} {e : Int} (h : IsNormal m e)
include h

theorem pack_normal : UnpackedFloat.pack .binary64 (.finite .positive m e h.pos) =
    packComponents .binary64 .positive (BitVec.ofNat 11 (e + 1075).toNat) (BitVec.ofNat 52 m) := by
  have hlow := h.minExponent
  have hhigh := h.maxExponent
  have hexponent : (e + (Format.binary64.exponentBias : Nat) +
      (Format.binary64.mantissaBitsWithoutImplicit : Nat)).toNat = (e + 1075).toNat := by
    show (e + (1023 : Nat) + (52 : Nat)).toNat = (e + 1075).toNat
    omega
  have hrange : ¬ 2 ^ Format.binary64.exponentBits ≤ (e + 1075).toNat + 1 := by
    show ¬ 2 ^ 11 ≤ (e + 1075).toNat + 1
    omega
  have hbits : m.log2 + 1 = Format.binary64.mantissaBits := by
    rw [h.log2]
    rfl
  delta UnpackedFloat.pack
  dsimp only
  rw [hexponent, if_neg hrange, if_pos hbits]

/-- The bits of a normal value: the leading bit of its mantissa raises the exponent field by one. -/
theorem toBits_ofNormal : (ofNormal m e h).toBits.toNat = (e + 1074).toNat * 2 ^ 52 + m := by
  have hbits : (ofNormal m e h).toBits.toNat =
      (UnpackedFloat.pack .binary64 (.finite .positive m e h.pos)).toNat := rfl
  rw [hbits, pack_normal h, packComponents, BitVec.toNat_append, BitVec.toNat_append,
    ← Nat.shiftLeft_add_eq_or_of_lt (BitVec.isLt _),
    ← Nat.shiftLeft_add_eq_or_of_lt (BitVec.isLt _)]
  obtain ⟨hmlow, hmhigh, hlow, hhigh⟩ := h
  simp only [Sign.toBitVec, BitVec.toNat_ofNat, Nat.shiftLeft_eq]
  omega

theorem unpack_ofNormal : (ofNormal m e h).toModel.unpack = .finite .positive m e h.pos := by
  have hunpack : (ofNormal m e h).toModel.unpack =
      UnpackedFloat.unpack .binary64 (UnpackedFloat.pack .binary64 (.finite .positive m e h.pos)) :=
    rfl
  obtain ⟨hmlow, hmhigh, hlow, hhigh⟩ := id h
  have hexponent : (BitVec.ofNat 11 (e + 1075).toNat).toNat = (e + 1075).toNat := by
    rw [BitVec.toNat_ofNat]
    omega
  have hmantissa : (1#1 ++ BitVec.ofNat 52 m).toNat = m := by
    rw [BitVec.toNat_append, ← Nat.shiftLeft_add_eq_or_of_lt (BitVec.isLt _), BitVec.toNat_ofNat,
      BitVec.toNat_ofNat, Nat.shiftLeft_eq]
    omega
  have hones : BitVec.ofNat 11 (e + 1075).toNat ≠ -1#11 := by
    intro heq
    have hnat : _ = 2047 := congrArg BitVec.toNat heq
    omega
  have hzero : BitVec.ofNat 11 (e + 1075).toNat ≠ 0#11 := by
    intro heq
    have hnat : _ = 0 := congrArg BitVec.toNat heq
    omega
  have hvalue : ((BitVec.ofNat 11 (e + 1075).toNat).toNat : Int) -
      ((1023 : Nat) + (52 : Nat)) = e := by omega
  rw [hunpack, pack_normal h]
  delta UnpackedFloat.unpack
  dsimp only
  rw [if_neg (unpackExponent_packComponents .. ▸ hones),
    if_neg (unpackExponent_packComponents .. ▸ hzero), UnpackedFloat.finite.injEq,
    unpackMantissa_packComponents, unpackExponent_packComponents]
  exact ⟨unpackSign_packComponents .., hmantissa, hvalue⟩

/-! ## Nothing is rounded -/

omit h in
theorem shift_mul_two_pow (k : Nat) :
    (⟨m * 2 ^ k, false, false⟩ : ExtendedMantissa) >>> k = ⟨m, false, false⟩ := by
  show Nat.repeat ExtendedMantissa.shiftRightOne k ⟨m * 2 ^ k, false, false⟩ = ⟨m, false, false⟩
  induction k generalizing m with
  | zero => rw [Nat.pow_zero, Nat.mul_one, Nat.repeat]
  | succ k ih =>
    rw [Nat.pow_succ, Nat.mul_comm _ 2, ← Nat.mul_assoc, Nat.repeat, ih,
      ExtendedMantissa.shiftRightOne]
    simp

/-- A normal value keeps its mantissa, at whatever exponent it arrives. -/
theorem shiftToTargetExponent_normal (k : Nat) :
    shiftToTargetExponent .binary64 (m * 2 ^ k) (e - k) .exact = (⟨m, false, false⟩, e) := by
  have htarget : Format.binary64.targetExponent (totalExponent (m * 2 ^ k) (e - k)) = e := by
    have hlow := h.minExponent
    have hmin : Format.binary64.minExponent = -1074 := rfl
    have hbits : Format.binary64.mantissaBits = 53 := rfl
    rw [totalExponent, log2_mul_two_pow h.pos, h.log2, Format.targetExponent, hmin, hbits]
    omega
  have hshift : (e - (e - k)).toNat = k := by omega
  rw [shiftToTargetExponent, htarget, shiftToExponent, hshift, Int.sub_add_cancel,
    ExtendedMantissa.ofMantissaAndAccuracy, shift_mul_two_pow]

theorem roundWithAccuracy_normal (s : Sign) (k : Nat) :
    roundWithAccuracy .binary64 s (m * 2 ^ k) (e - k) .exact = .finite s m e h.pos := by
  have hagain := shiftToTargetExponent_normal h 0
  rw [Nat.pow_zero, Nat.mul_one, Int.natCast_zero, Int.sub_zero] at hagain
  have hrounded : (⟨m, false, false⟩ : ExtendedMantissa).roundedMantissa = m := rfl
  rw [roundWithAccuracy, shiftToTargetExponent_normal h k]
  dsimp only
  rw [hrounded, hagain]
  exact dif_neg (Nat.ne_of_gt h.pos)

/-- The product with one is the value itself. -/
theorem ofNormal_mul_one : ofNormal m e h * Float.ofBits 0x3FF0000000000000 = ofNormal m e h := by
  have hone : (Float.ofBits 0x3FF0000000000000).toModel.unpack =
      .finite .positive (2 ^ 52) (-52) (by decide) := by
    rfl
  have hmul : ofNormal m e h * Float.ofBits 0x3FF0000000000000 =
      ⟨pack (UnpackedFloat.mul .binary64 (ofNormal m e h).toModel.unpack
        (Float.ofBits 0x3FF0000000000000).toModel.unpack)⟩ := rfl
  rw [hmul, unpack_ofNormal, hone]
  exact congrArg (fun u ↦ Float.ofModel (pack u)) (roundWithAccuracy_normal h .positive 52)

end Normal

/-! ## Sign, mantissa and exponent determine the bits -/

/-- The bits of a value, read as a number, leave no choice of the value. -/
theorem eq_of_toNat_toBits {x y : Float} (h : x.toBits.toNat = y.toBits.toNat) : x = y := by
  obtain ⟨⟨a, ha⟩⟩ := x
  obtain ⟨⟨b, hb⟩⟩ := y
  obtain rfl : a = b := UInt64.toNat_inj.1 h
  rfl

/-- What the bits of a finite value are.  Its mantissa is in the normal place, or its exponent is
the least one. -/
theorem finite_of_parts {x : Float} {negative : Bool} {m : Nat} {e : Int}
    (h : parts x = .finite negative m e) :
    x.toBits.toNat = (if negative then 2 ^ 63 else 0) + (e + 1074).toNat * 2 ^ 52 + m ∧
      (IsNormal m e ∨ m < 2 ^ 52 ∧ e = -1074) := by
  have hlt : x.toBits.toNat < 2 ^ 64 := x.toBits.toNat_lt
  have hlead : leadingBit = 2 ^ 52 := rfl
  have hsign : signBit = 2 ^ 63 := rfl
  simp only [parts, hlead, hsign, minExponent] at h
  generalize x.toBits.toNat = bits at h hlt ⊢
  split at h
  · split at h <;> cases h
  · split at h
    · obtain ⟨rfl, rfl, rfl⟩ := Parts.finite.inj h
      simp only [decide_eq_true_iff]
      exact ⟨by split <;> omega, .inr ⟨by omega, trivial⟩⟩
    · obtain ⟨rfl, rfl, rfl⟩ := Parts.finite.inj h
      simp only [decide_eq_true_iff]
      exact ⟨by split <;> omega, .inl ⟨by omega, by omega, by omega, by omega⟩⟩

/-- A positive value with a normal mantissa is determined by mantissa and exponent. -/
theorem eq_ofNormal {x : Float} {m : Nat} {e : Int} (hx : parts x = .finite false m e)
    (h : IsNormal m e) : x = ofNormal m e h := by
  have hbits := (finite_of_parts hx).1
  rw [if_neg Bool.false_ne_true, Nat.zero_add, ← toBits_ofNormal h] at hbits
  exact eq_of_toNat_toBits hbits

/-! ## Whole numbers -/

/-- How far the mantissa of a whole number is shifted up to its normal place. -/
def normalShift (n : Nat) : Nat := 52 - n.log2

section Whole

variable {n : Nat} (hpos : 0 < n) (hn : n < 2 ^ 53)
include hpos hn

theorem log2_add_normalShift : n.log2 + normalShift n = 52 :=
  Nat.add_sub_cancel' (Nat.lt_succ_iff.1 ((Nat.log2_lt (Nat.ne_of_gt hpos)).2 hn))

theorem isNormal_whole : IsNormal (n * 2 ^ normalShift n) (-(normalShift n : Int)) := by
  have hshift := log2_add_normalShift hpos hn
  have hlog := log2_mul_two_pow hpos (normalShift n)
  rw [hshift] at hlog
  have hne : n * 2 ^ normalShift n ≠ 0 :=
    Nat.ne_of_gt (Nat.mul_pos hpos (Nat.two_pow_pos _))
  obtain ⟨hlow, hhigh⟩ := (Nat.log2_eq_iff hne).1 hlog
  exact ⟨hlow, hhigh, by omega, by omega⟩

/-- The value of a positive whole number. -/
def ofWhole : Float := ofNormal _ _ (isNormal_whole hpos hn)

theorem round_whole (s : Sign) : UnpackedFloat.round .binary64 s n 0 =
    .finite s (n * 2 ^ normalShift n) (-(normalShift n : Int)) (isNormal_whole hpos hn).pos := by
  have hlog := log2_add_normalShift hpos hn
  have htarget : Format.binary64.targetExponent (totalExponent n 0) = -(normalShift n : Int) := by
    have hmin : Format.binary64.minExponent = -1074 := rfl
    have hbits : Format.binary64.mantissaBits = 53 := rfl
    rw [totalExponent, Format.targetExponent, hmin, hbits]
    omega
  have hdecrease : decreaseExponent n 0 (-(normalShift n : Int)) =
      (n * 2 ^ normalShift n, -(normalShift n : Int)) := by
    have hshift : (0 - -(normalShift n : Int)).toNat = normalShift n := by omega
    rw [decreaseExponent, hshift, Nat.shiftLeft_eq, Int.zero_sub]
  have hround := roundWithAccuracy_normal (isNormal_whole hpos hn) s 0
  rw [Nat.pow_zero, Nat.mul_one, Int.natCast_zero, Int.sub_zero] at hround
  rw [UnpackedFloat.round, htarget, hdecrease]
  exact hround

/-- The built-in conversion gives the value of a whole number. -/
theorem toFloat_toUInt64 : n.toUInt64.toFloat = ofWhole hpos hn := by
  have hnat : n.toUInt64.toNat = n := by
    rw [UInt64.toNat_ofNat']
    omega
  have hsign : compare (n : Int) 0 = .gt := Int.compare_eq_gt.2 (Int.natCast_pos.2 hpos)
  have hunpacked : UnpackedFloat.ofUInt64 .binary64 n.toUInt64 =
      UnpackedFloat.round .binary64 .positive n 0 := by
    rw [UnpackedFloat.ofUInt64, hnat, UnpackedFloat.ofNat, UnpackedFloat.ofInt,
      UnpackedFloat.normalize, hsign]
    rfl
  rw [round_whole hpos hn] at hunpacked
  exact congrArg (fun u ↦ Float.ofModel (pack u)) hunpacked

end Whole

/-- A whole number is its mantissa, shifted by the exponent. -/
theorem exists_parts_of_integer? {x : Float} {k : Int} (h : integer? x = some k) :
    ∃ negative m e, parts x = .finite negative m e ∧
      k = (if negative then -(k.natAbs : Int) else k.natAbs) ∧
      m * 2 ^ e.toNat = k.natAbs * 2 ^ (-e).toNat := by
  have hsigned : ∀ (negative : Bool) (n : Nat),
      (if negative then -(n : Int) else n).natAbs = n := by
    intro negative n
    split <;> omega
  rw [integer?] at h
  split at h
  · rename_i negative m e hparts
    refine ⟨negative, m, e, hparts, ?_⟩
    simp only [Nat.shiftLeft_eq, Nat.one_mul] at h
    split at h
    · rename_i he
      have hzero : (-e).toNat = 0 := by omega
      cases h
      rw [hsigned, hzero, Nat.pow_zero, Nat.mul_one]
      exact ⟨rfl, rfl⟩
    · rename_i he
      have hzero : e.toNat = 0 := by omega
      split at h
      · rename_i hunit
        cases h
        rw [hsigned, hzero, Nat.pow_zero, Nat.mul_one,
          Nat.div_mul_cancel (Nat.dvd_of_mod_eq_zero hunit)]
        exact ⟨rfl, rfl⟩
      · cases h
  · cases h

/-- A positive whole number has one value. -/
theorem eq_ofWhole {x : Float} {n : Nat} (h : integer? x = some (n : Int)) (hpos : 0 < n)
    (hn : n < 2 ^ 53) : x = ofWhole hpos hn := by
  obtain ⟨negative, m, e, hparts, hnegative, hvalue⟩ := exists_parts_of_integer? h
  rw [Int.natAbs_natCast] at hnegative hvalue
  obtain rfl : negative = false := by
    cases negative with
    | false => rfl
    | true =>
      rw [if_pos rfl] at hnegative
      omega
  rcases (finite_of_parts hparts).2 with hnormal | ⟨hm, rfl⟩
  · have hlog := congrArg Nat.log2 hvalue
    rw [log2_mul_two_pow hnormal.pos, log2_mul_two_pow hpos, hnormal.log2] at hlog
    have hshift := log2_add_normalShift hpos hn
    obtain rfl : e = -(normalShift n : Int) := by omega
    have hzero : (-(normalShift n : Int)).toNat = 0 := by omega
    have hshift : (- -(normalShift n : Int)).toNat = normalShift n := by omega
    rw [hzero, hshift, Nat.pow_zero, Nat.mul_one] at hvalue
    subst hvalue
    exact eq_ofNormal hparts hnormal
  · -- Subnormal values are below one.
    have hzero : (-1074 : Int).toNat = 0 := rfl
    have hshift : 52 ≤ (- -1074 : Int).toNat := by decide
    rw [hzero, Nat.pow_zero, Nat.mul_one] at hvalue
    rw [hvalue] at hm
    have hlarge := Nat.le_trans (Nat.pow_le_pow_right Nat.two_pos hshift)
      (Nat.le_mul_of_pos_left _ hpos)
    exact absurd hm (Nat.not_lt.2 hlarge)

/-- Zero has two values. -/
theorem eq_zero_of_integer? {x : Float} (h : integer? x = some 0) : x = 0.0 ∨ x = -0.0 := by
  obtain ⟨negative, m, e, hparts, -, hvalue⟩ := exists_parts_of_integer? h
  obtain rfl : m = 0 := by
    rw [Int.natAbs_zero, Nat.zero_mul] at hvalue
    exact (Nat.mul_eq_zero.1 hvalue).resolve_right (Nat.ne_of_gt (Nat.two_pow_pos _))
  obtain ⟨hbits, hnormal | ⟨-, rfl⟩⟩ := finite_of_parts hparts
  · exact absurd hnormal.pos (Nat.lt_irrefl 0)
  · cases negative with
    | false => exact .inl (eq_of_toNat_toBits hbits)
    | true => exact .inr (eq_of_toNat_toBits hbits)

end Binary64

/-! ## Reading whole numbers -/

namespace Decimal

/-- A positive whole number is rounded to its value. -/
theorem toFloat_whole {n : Nat} (hpos : 0 < n) (hn : n < 2 ^ 53) :
    toFloat ⟨n, 0⟩ = Binary64.ofWhole hpos hn := by
  have hconvert : n.toUInt64.toFloat = Binary64.ofWhole hpos hn :=
    Binary64.toFloat_toUInt64 hpos hn
  have hscientific : toFloat ⟨n, 0⟩ = Float.ofScientific n false 0 := by
    have hlow : ¬ (0 : Int) < -(exponentLimit + n.log2 : Nat) := by omega
    rw [toFloat]
    simp only [if_neg (Nat.ne_of_gt hpos), if_neg hlow]
    rfl
  have hexact : n < 2 ^ 53 ∧ 0 ≤ 22 := ⟨hn, by decide⟩
  rw [hscientific, Float.ofScientific, dif_pos hexact, hconvert]
  exact Binary64.ofNormal_mul_one _

theorem ofDigits_toDigits (n : Nat) : ofDigits (Nat.toDigits 10 n) = n :=
  Nat.ofDigitChars_ten_toDigits

theorem isDigits_toDigits (n : Nat) : Lexeme.IsDigits (Nat.toDigits 10 n) :=
  ⟨Nat.toDigits_ne_nil, fun _ ↦ Nat.isDigit_of_mem_toDigits (by decide) (by decide)⟩

/-- **A whole number that is written in decimal reads as its value**, unless that is the negative
zero. -/
theorem readFloat?_toDigits {x : Float} {n : Nat} (h : Binary64.integer? x = some (n : Int))
    (hn : n < 2 ^ 53) (hx : x ≠ -0.0) : readFloat? (Nat.toDigits 10 n) = some x := by
  rw [readFloat?_digits (isDigits_toDigits n), ofDigits_toDigits]
  rcases Nat.eq_zero_or_pos n with rfl | hpos
  · rcases Binary64.eq_zero_of_integer? h with rfl | rfl
    · rfl
    · exact absurd rfl hx
  · rw [toFloat_whole hpos hn, Binary64.eq_ofWhole h hpos hn]

end Decimal

end SvLang
