import SvLang.Text.Printable

/-!
# Quoted text in listings and messages

Listings, tree dumps and error messages show a text between two marks, so that a reader can tell
where it ends.  Between the marks stand only characters that show by themselves; the others are
written as escapes, and so are the backslash and the mark itself.

The escape of one character, `escaped`, does not look at its neighbours, and a text is written
character by character.
-/

set_option autoImplicit false

namespace SvLang.Text

/-- How one character is written between two marks: five characters have a short escape, the mark
is written behind a backslash, and what is not printable is written by its code point. -/
def escaped (mark c : Char) : List Char :=
  if c = '\x00' then ['\\', '0']
  else if c = '\t' then ['\\', 't']
  else if c = '\n' then ['\\', 'n']
  else if c = '\r' then ['\\', 'r']
  else if c = '\\' then ['\\', '\\']
  else if c = mark then ['\\', mark]
  else if isPrintable c then [c]
  else ['\\', 'u', '\x7b'] ++ Nat.toDigits 16 c.toNat ++ ['\x7d']

/-- A run of characters between two marks. -/
def quotedBy (mark : Char) (cs : List Char) : List Char :=
  mark :: (cs.flatMap (escaped mark) ++ [mark])

/-- A text as listings and messages show it. -/
def quoted (s : String) : String := String.ofList (quotedBy '\x22' s.toList)

/-- A single character as messages show it. -/
def quotedChar (c : Char) : String := String.ofList (quotedBy '\x27' [c])

/-! ## Some escapes -/

example : quotedBy '\x22' ['a', '\n', '\x22', '\x27'] =
    ['\x22', 'a', '\\', 'n', '\\', '\x22', '\x27', '\x22'] := by decide +kernel

example : quotedBy '\x27' ['\ufeff'] =
    ['\x27', '\\', 'u', '\x7b', 'f', 'e', 'f', 'f', '\x7d', '\x27'] := by decide +kernel

end SvLang.Text
