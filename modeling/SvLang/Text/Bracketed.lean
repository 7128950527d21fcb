/-!
# Items in brackets

Dumps and JSON are made of items in brackets, one inside the other.  A `Bracketed` text leaves open
how the items are spread: `appendOneLine` puts them on one line, `appendLines` puts each on a line
of its own, indented by its depth.  Brackets without items stay closed either way.

Both write behind a text that is already there, so that nothing is copied twice.
-/

set_option autoImplicit false

namespace SvLang

/-- A text that holds no items, or items in brackets, each behind its label. -/
inductive Bracketed where
  | atom (text : String)
  /-- On one line, `padded` brackets have a space on their inner side. -/
  | group (opening : String) (padded : Bool) (items : List (String × Bracketed)) (closing : String)

namespace Bracketed

mutual

/-- Writes a text behind `out`, all on one line. -/
def appendOneLine (out : String) : Bracketed → String
  | atom text => out ++ text
  | group opening padded items closing =>
    let pad := if padded then " " else ""
    appendItems (out ++ opening ++ pad) items ++ pad ++ closing

/-- Writes items behind `out`, with commas between them. -/
def appendItems (out : String) : List (String × Bracketed) → String
  | [] => out
  | [(label, item)] => appendOneLine (out ++ label) item
  | (label, item) :: next :: items =>
    appendItems (appendOneLine (out ++ label) item ++ ", ") (next :: items)

end

/-- How items are spread over lines: the width of one step of indentation, and whether a comma
stands behind the last item too. -/
structure Spread where
  width : Nat
  trailingComma : Bool

mutual

/-- Writes a text behind `out`, with one item on each line, `level` steps from the margin. -/
def appendLines (s : Spread) (level : Nat) (out : String) : Bracketed → String
  | atom text => out ++ text
  | group opening _ [] closing => out ++ opening ++ closing
  | group opening _ (item :: items) closing =>
    let out := appendItemLines s (level + 1) (out ++ opening ++ "\n") (item :: items)
    out.pushn ' ' (s.width * level) ++ closing

/-- Writes items behind `out`, one on each line. -/
def appendItemLines (s : Spread) (level : Nat) (out : String) : List (String × Bracketed) → String
  | [] => out
  | (label, item) :: items =>
    let out := appendLines s level (out.pushn ' ' (s.width * level) ++ label) item
    let comma := if items.isEmpty && !s.trailingComma then "" else ","
    appendItemLines s level (out ++ comma ++ "\n") items

end

end Bracketed

end SvLang
