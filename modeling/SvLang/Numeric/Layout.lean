import SvLang.Numeric.Shortest

/-!
# How numbers are written

Numbers are written with the fewest digits that read back, in one of two ways: positionally, always
with a digit behind the point, or with one digit in front of the point and a power of ten.  What a
particular output decides for itself is collected in a `Layout`.

## What is here

* `Layout.write`: the text of a value.
* `listing` and `json`: the layouts of tree dumps and of JSON.
-/

set_option autoImplicit false

namespace SvLang

/-- What an output decides about its numbers. -/
structure Layout where
  /-- The least power of ten of a leading digit that is written positionally. -/
  least : Int
  /-- The greatest power of ten of a leading digit that is written positionally. -/
  greatest : Int
  /-- Whether a positive power of ten has a sign. -/
  signedPower : Bool
  /-- Which of two decimals is taken if the value is halfway between them. -/
  tie : Tie
  /-- The text of a value that is no number. -/
  nan : String
  /-- The text of positive infinity. -/
  infinity : String
  /-- The text of negative infinity. -/
  negativeInfinity : String

namespace Layout

/-- Tree dumps write numbers from `1e-4` up to `1e16` positionally and take the upper decimal on a
tie. -/
def listing : Layout where
  least := -4
  greatest := 15
  signedPower := false
  tie := .upward
  nan := "NaN"
  infinity := "inf"
  negativeInfinity := "-inf"

/-- JSON output writes numbers from `1e-5` up to `1e16` positionally and takes the even decimal on
a tie.  JSON has no text for a value that is not finite. -/
def json : Layout where
  least := -5
  greatest := 15
  signedPower := true
  tie := .toEven
  nan := "null"
  infinity := "null"
  negativeInfinity := "null"

/-- The digits `ds` with the point behind the first `point` of them, filled up with zeros so that
a digit stands on each side of it. -/
def positional (ds : List Char) (point : Int) : List Char :=
  let zeros (n : Nat) := List.replicate n '0'
  if point ≤ 0 then ['0', '.'] ++ zeros (-point).toNat ++ ds
  else
    let whole := ds.take point.toNat
    let fraction := ds.drop point.toNat
    whole ++ zeros (point.toNat - ds.length) ++ ['.'] ++ if fraction = [] then ['0'] else fraction

/-- The digits `ds` with the point behind the first one, if there are more, and then the power of
ten of that first digit. -/
def scientific (l : Layout) (ds : List Char) (power : Int) : List Char :=
  let fraction := ds.drop 1
  let sign := if power < 0 then ['-'] else if l.signedPower then ['+'] else []
  ds.take 1 ++ (if fraction = [] then [] else '.' :: fraction) ++ ['e'] ++ sign
    ++ Nat.toDigits 10 power.natAbs

/-- A list of digits without the zeros at its end. -/
def dropTrailingZeros (ds : List Char) : List Char :=
  (ds.reverse.dropWhile (· = '0')).reverse

/-- The text of a decimal that is not zero. -/
def writeDecimal (l : Layout) (d : Decimal) : List Char :=
  let digits := Nat.toDigits 10 d.digits
  let point := digits.length + d.exponent
  let ds := dropTrailingZeros digits
  let power := point - 1
  if l.least ≤ power ∧ power ≤ l.greatest then positional ds point else l.scientific ds power

/-- The text of a value. -/
def write (l : Layout) (x : Float) : String :=
  match Binary64.parts x with
  | .nan => l.nan
  | .infinite negative => if negative then l.negativeInfinity else l.infinity
  | .finite negative mantissa exponent =>
    let magnitude :=
      if mantissa = 0 then ['0', '.', '0']
      else l.writeDecimal (.shortest l.tie mantissa exponent)
    String.ofList (if negative then '-' :: magnitude else magnitude)

end Layout

end SvLang
