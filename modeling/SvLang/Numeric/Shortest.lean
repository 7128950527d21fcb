import SvLang.Numeric.Decimal

/-!
# The shortest decimal that reads back

The reals that round to a given binary64 value form an interval: from halfway to the neighbour
below to halfway to the neighbour above, with its ends if the mantissa is even.  Of all decimals in
that interval, the text of the value has the fewest digits, and among those it is the nearest.

## How it is found

For 1, 2, … digits the value lies between two neighbours on the grid of decimals with so many
digits.  If any decimal of the grid is in the interval, then so is one of these two, so the first
grid on which a neighbour is in the interval has the fewest digits.  Everything is compared as
natural numbers, exactly: `Scaled` holds the value and the ends of its interval in units of the
grid, over one common denominator.
-/

set_option autoImplicit false

namespace SvLang

/-- Which of two decimals is taken if the value is exactly halfway between them. -/
inductive Tie where
  | upward
  | toEven
  deriving DecidableEq, Repr

/-! ## The interval -/

/-- A positive value and the interval of the reals that round to it: all three are numerators over
`unit`, and `closed` says whether the ends belong to the interval. -/
structure Scaled where
  value : Nat
  low : Nat
  high : Nat
  unit : Nat
  closed : Bool
  deriving DecidableEq, Repr

namespace Scaled

/-- The value `mantissa · 2 ^ exponent` with its interval.  In quarters of the last binary place
the neighbour above is four away and half the gap is two; just above a power of two the gap below
is half as wide. -/
def ofParts (mantissa : Nat) (exponent : Int) : Scaled :=
  let narrow := mantissa = Binary64.leadingBit ∧ Binary64.minExponent < exponent
  let quarter := exponent - 2
  let up := quarter.toNat
  { value := (4 * mantissa) <<< up
    low := (4 * mantissa - if narrow then 1 else 2) <<< up
    high := (4 * mantissa + 2) <<< up
    unit := 1 <<< (-quarter).toNat
    closed := mantissa % 2 = 0 }

/-- The power of ten with this exponent. -/
def tens (exponent : Nat) : Nat := Nat.pow 10 exponent

/-- The same value and interval, counted in multiples of `10 ^ place`. -/
def inTens (s : Scaled) (place : Int) : Scaled :=
  let up := tens (-place).toNat
  { value := s.value * up
    low := s.low * up
    high := s.high * up
    unit := s.unit * tens place.toNat
    closed := s.closed }

/-- Whether the whole number `n` lies in the interval. -/
def holds (s : Scaled) (n : Nat) : Bool :=
  let m := n * s.unit
  if s.closed then s.low ≤ m ∧ m ≤ s.high else s.low < m ∧ m < s.high

/-- The whole number next to the value that lies in the interval, the nearer one if both do. -/
def nearest? (tie : Tie) (s : Scaled) : Option Nat :=
  let below := s.value / s.unit
  let above := below + 1
  match s.holds below, s.holds above with
  | false, false => none
  | true, false => some below
  | false, true => some above
  | true, true =>
    match compare (2 * s.value) ((below + above) * s.unit), tie with
    | .lt, _ => some below
    | .gt, _ => some above
    | .eq, .upward => some above
    | .eq, .toEven => some (if below % 2 = 0 then below else above)

/-- What is found lies in the interval. -/
theorem holds_of_nearest? {tie : Tie} {s : Scaled} {n : Nat} (h : s.nearest? tie = some n) :
    s.holds n := by
  simp only [nearest?] at h
  repeat' split at h
  all_goals cases h
  all_goals assumption

/-- The place of the point: the number `k` with `10 ^ (k - 1) ≤ value / unit < 10 ^ k`.  Below one
it is read off the digits of the reciprocal. -/
def point (s : Scaled) : Int :=
  if s.unit ≤ s.value then (Nat.toDigits 10 (s.value / s.unit)).length
  else 1 - ((Nat.toDigits 10 (s.unit / s.value)).length : Int)

end Scaled

/-! ## The search -/

/-- So many digits are always enough. -/
def maxDigits : Nat := 17

/-- Searches the grids of `maxDigits - more`, … digits; `more` counts the grids still ahead.  A
value that no grid catches is rounded down on the last one, which never happens to binary64
values. -/
def shortestFrom (tie : Tie) (s : Scaled) (point : Int) : Nat → Decimal
  | 0 =>
    let place := point - maxDigits
    ⟨(s.inTens place).value / (s.inTens place).unit, place⟩
  | more + 1 =>
    let place := point - (maxDigits - more : Nat)
    match (s.inTens place).nearest? tie with
    | some n => ⟨n, place⟩
    | none => shortestFrom tie s point more

/-- The decimal with the fewest digits that reads back as `mantissa · 2 ^ exponent`. -/
def Decimal.shortest (tie : Tie) (mantissa : Nat) (exponent : Int) : Decimal :=
  let s := Scaled.ofParts mantissa exponent
  shortestFrom tie s s.point maxDigits

example : Decimal.shortest .toEven Binary64.leadingBit (-52) = ⟨1, 0⟩ := by decide +kernel
example : Decimal.shortest .toEven 1 (-1074) = ⟨5, -324⟩ := by decide +kernel

end SvLang
