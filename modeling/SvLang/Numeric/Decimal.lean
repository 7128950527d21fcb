import SvLang.Numeric.Binary64

/-!
# Decimal numbers

A decimal is a whole number of units of a power of ten.  This file reads one from text and rounds
it to the nearest binary64 value.

The text of a number is an optional sign and then either digits, with a point before, among or
behind them if there is one, and perhaps an exponent, or one of the words `inf`, `infinity` and
`nan` in any mixture of cases.  Nothing may stand around or between these parts.
-/

set_option autoImplicit false

namespace SvLang

/-- The number `digits · 10 ^ exponent`. -/
structure Decimal where
  digits : Nat
  exponent : Int
  deriving DecidableEq, Repr

namespace Decimal

/-! ## Rounding to binary64 -/

/-- Beyond this power of ten every value overflows, and below its negative every value vanishes. -/
def exponentLimit : Nat := 400

/-- The nearest binary64 value, the even one of two equally near.  Values far out of range are
settled first, since their powers of ten would be needlessly large. -/
def toFloat (d : Decimal) : Float :=
  if d.digits = 0 then 0.0
  else if exponentLimit < d.exponent then Binary64.infinity
  else if d.exponent < -(exponentLimit + d.digits.log2 : Nat) then 0.0
  else Float.ofScientific d.digits (d.exponent < 0) d.exponent.natAbs

/-! ## Reading -/

/-- The number that a run of digits writes. -/
def ofDigits (ds : List Char) : Nat :=
  ds.foldl (fun n d ↦ 10 * n + (d.toNat - '0'.toNat)) 0

/-- A sign and what follows it: whether the sign is a minus, and the rest. -/
def splitSign : List Char → Bool × List Char
  | '-' :: cs => (true, cs)
  | '+' :: cs => (false, cs)
  | cs => (false, cs)

/-- Reads the exponent that ends a number: nothing, or a letter `e`, a sign and digits. -/
def exponent? : List Char → Option Int
  | [] => some 0
  | c :: cs =>
    if c = 'e' ∨ c = 'E' then
      let (negative, digits) := splitSign cs
      if digits ≠ [] ∧ digits.all Char.isDigit then
        some (if negative then -(ofDigits digits) else ofDigits digits)
      else none
    else none

/-- Reads a decimal without a sign. -/
def ofChars? (cs : List Char) : Option Decimal :=
  let whole := cs.takeWhile Char.isDigit
  let rest := cs.dropWhile Char.isDigit
  let (fraction, rest) := match rest with
    | '.' :: rest => (rest.takeWhile Char.isDigit, rest.dropWhile Char.isDigit)
    | rest => ([], rest)
  if whole ++ fraction = [] then none
  else (exponent? rest).map fun e ↦ ⟨ofDigits (whole ++ fraction), e - fraction.length⟩

/-- Reads one of the words for values that no decimal denotes. -/
def special? (cs : List Char) : Option Float :=
  let word := cs.map Char.toLower
  if word = ['i', 'n', 'f'] ∨ word = ['i', 'n', 'f', 'i', 'n', 'i', 't', 'y'] then
    some Binary64.infinity
  else if word = ['n', 'a', 'n'] then some Binary64.nan
  else none

/-- The binary64 value that a text writes, if it writes one. -/
def readFloat? (cs : List Char) : Option Float :=
  let (negative, cs) := splitSign cs
  let magnitude := (special? cs).or ((ofChars? cs).map toFloat)
  magnitude.map fun x ↦ if negative then -x else x

example : readFloat? ['1', '2', '.', '5'] = some 12.5 := by decide
example : readFloat? ['-', '.', '5', 'E', '+', '1'] = some (-5.0) := by decide
example : readFloat? ['.'] = none := by decide
example : readFloat? ['1', 'e'] = none := by decide
example : readFloat? ['I', 'n', 'F'] = some Binary64.infinity := by decide

end Decimal

end SvLang
