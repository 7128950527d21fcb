/-!
# Binary64 numbers, taken apart

Numbers of the language are IEEE 754 binary64 values.  Their sums, differences, products and
quotients are the built-in ones; what is computed exactly on sign, mantissa and exponent is here.

## What is here

* `Parts` and `parts`: a value as sign · mantissa · 2 ^ exponent, and `ofFinite` on the way back.
* `remainder`: the remainder of a division that is rounded toward zero.
* `integer?`: the whole number that a value is, and `int32?`, where 32 bits have to hold it.
-/

set_option autoImplicit false

namespace SvLang.Binary64

/-! ## Sign, mantissa and exponent -/

/-- What a value is: no number, an infinity, or `±mantissa · 2 ^ exponent`. -/
inductive Parts where
  | nan
  | infinite (negative : Bool)
  | finite (negative : Bool) (mantissa : Nat) (exponent : Int)
  deriving DecidableEq, Repr

/-- The least exponent, that of the subnormal values. -/
def minExponent : Int := -1074

/-- The bit in front of the fraction of a normal value, which is not stored. -/
def leadingBit : Nat := 1 <<< 52

/-- The bit that makes a value negative. -/
def signBit : Nat := 1 <<< 63

/-- Takes a value apart.  The mantissa of a normal value has its leading bit, the 53rd, set; the
subnormal values and the zeros share the least exponent. -/
def parts (x : Float) : Parts :=
  let bits := x.toBits.toNat
  let negative := decide (signBit ≤ bits)
  let biased := bits / leadingBit % 2048
  let fraction := bits % leadingBit
  if biased = 2047 then
    if fraction = 0 then .infinite negative else .nan
  else if biased = 0 then .finite negative fraction minExponent
  else .finite negative (leadingBit + fraction) (minExponent + (biased - 1 : Nat))

/-- The value `±mantissa · 2 ^ exponent`, for a mantissa below `2 ^ 53` and an exponent of at least
`minExponent`, if it is in range.  The mantissa is shifted up to its normal place as far as the
exponent allows; with the leading bit in place, adding it to the exponent field raises that by the
one that sets normal values apart. -/
def ofFinite (negative : Bool) (mantissa : Nat) (exponent : Int) : Float :=
  let shift := min (52 - mantissa.log2) (exponent - minExponent).toNat
  let field := (exponent - minExponent).toNat - shift
  let sign := if negative then signBit else 0
  let magnitude := if mantissa = 0 then 0 else field * leadingBit + mantissa <<< shift
  Float.ofBits (UInt64.ofNat (sign + magnitude))

/-- The value that is no number. -/
def nan : Float := 0.0 / 0.0

/-- Positive infinity. -/
def infinity : Float := 1.0 / 0.0

example : parts 1.0 = .finite false leadingBit (-52) := by decide
example : parts (-0.0) = .finite true 0 (-1074) := by decide
example : ofFinite true 3 (-1) = -1.5 := by decide
example : ofFinite false 1 (-1074) = Float.ofBits 1 := by decide

/-! ## The remainder -/

/-- The remainder of `x / y` with the quotient rounded toward zero: it has the sign of `x`, is
smaller than `y`, and is always exact.  Both mantissas are brought to the lesser of the two
exponents, where the remainder is one of natural numbers. -/
def remainder (x y : Float) : Float :=
  match parts x, parts y with
  | .finite negative m p, .finite _ n q =>
    if n = 0 then nan
    else
      let least := min p q
      ofFinite negative (m <<< (p - least).toNat % n <<< (q - least).toNat) least
  | .finite .., .infinite _ => x
  | _, _ => nan

example : remainder 7.5 2.0 = 1.5 := by decide
example : remainder (-7.0) 3.0 = -1.0 := by decide
example : remainder (-6.0) 3.0 = -0.0 := by decide
example : remainder 5.0 infinity = 5.0 := by decide

/-! ## Whole numbers -/

/-- The whole number that the value is, if it is one.  Both zeros are `0`. -/
def integer? (x : Float) : Option Int :=
  match parts x with
  | .finite negative m q =>
    let signed (n : Nat) : Int := if negative then -n else n
    if 0 ≤ q then some (signed (m <<< q.toNat))
    else
      let unit := 1 <<< (-q).toNat
      if m % unit = 0 then some (signed (m / unit)) else none
  | _ => none

/-- The whole number that the value is, if it is one of 32 bits with sign. -/
def int32? (x : Float) : Option Int :=
  (integer? x).filter fun n ↦ -2147483648 ≤ n ∧ n ≤ 2147483647

/-- What `int32?` finds is in range. -/
theorem int32?_range {x : Float} {n : Int} (h : int32? x = some n) :
    -2147483648 ≤ n ∧ n ≤ 2147483647 := by
  simpa using (Option.filter_eq_some_iff.1 h).2

example : int32? (-0.0) = some 0 := by decide +kernel
example : int32? 2147483647.0 = some 2147483647 := by decide
example : int32? 2147483648.0 = none := by decide
example : int32? 0.5 = none := by decide

end SvLang.Binary64
