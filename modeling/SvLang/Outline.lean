import SvLang.Numeric.Layout
import SvLang.Text.Bracketed
import SvLang.Text.Quoted

/-!
# Outlines of values

A dump shows a value by the names of its parts.  An `Outline` is such a value with its names, before
it is decided how it is written: as a listing on one line, as a listing over many lines, or as JSON.

## What is here

* `Outline`: words, texts, numbers, lists, and parts under names.
* `Outline.listing` and `Outline.json`, the two spellings of an outline, and the three forms of
  output made of them: `oneLine`, `indented` and `prettyJson`.
-/

set_option autoImplicit false

namespace SvLang

/-- A value with the names of its parts. -/
inductive Outline where
  /-- A value that is nothing but a name. -/
  | word (name : String)
  | text (content : String)
  | float (value : Float)
  | natural (n : Nat)
  /-- An optional value that is missing. -/
  | absent
  /-- An optional value that is there. -/
  | present (value : Outline)
  | list (items : List Outline)
  /-- A value made of named fields. -/
  | record (name : String) (fields : List (String × Outline))
  /-- One of several forms of a value, with its content. -/
  | tagged (name : String) (content : Outline)
  /-- One of several forms of a value, made of named fields. -/
  | taggedRecord (name : String) (fields : List (String × Outline))

/-- An optional value as an outline. -/
def Outline.ofOption? (value? : Option Outline) : Outline :=
  match value? with
  | none => absent
  | some value => present value

/-! ## The two spellings of an outline -/

namespace Outline

/-! ### Listings -/

mutual

/-- The listing of an outline: names in front of brackets. -/
def listing : Outline → Bracketed
  | word name => .atom name
  | text content => .atom (Text.quoted content)
  | float value => .atom (Layout.listing.write value)
  | natural n => .atom (toString n)
  | absent => .atom "None"
  | present value => .group "Some(" false [("", value.listing)] ")"
  | list items => .group "[" false (listingItems [] items) "]"
  | record name fields => .group (name ++ " \x7b") true (listingFields fields) "\x7d"
  | tagged name content => .group (name ++ "(") false [("", content.listing)] ")"
  | taggedRecord name fields => .group (name ++ " \x7b") true (listingFields fields) "\x7d"

/-- The listings of the items of a list, behind those that are `done`, latest first. -/
def listingItems (done : List (String × Bracketed)) : List Outline → List (String × Bracketed)
  | [] => done.reverse
  | item :: items => listingItems (("", item.listing) :: done) items

/-- The listings of named fields. -/
def listingFields : List (String × Outline) → List (String × Bracketed)
  | [] => []
  | (name, value) :: fields => (name ++ ": ", value.listing) :: listingFields fields

end

/-! ### JSON -/

/-- How JSON writes one character of a text. -/
def jsonEscaped (c : Char) : List Char :=
  if c = '\x22' then ['\\', '\x22']
  else if c = '\\' then ['\\', '\\']
  else if c = '\x08' then ['\\', 'b']
  else if c = '\x0c' then ['\\', 'f']
  else if c = '\n' then ['\\', 'n']
  else if c = '\r' then ['\\', 'r']
  else if c = '\t' then ['\\', 't']
  else if c.toNat < 32 then
    ['\\', 'u', '0', '0'] ++ (if c.toNat < 16 then ['0'] else []) ++ Nat.toDigits 16 c.toNat
  else [c]

/-- A text as JSON writes it. -/
def jsonText (s : String) : String :=
  String.ofList ('\x22' :: (s.toList.flatMap jsonEscaped ++ ['\x22']))

mutual

/-- The JSON value of an outline.  Records lose their names; a form of a value becomes an object
with the form as its only key. -/
def json : Outline → Bracketed
  | word name => .atom (jsonText name)
  | text content => .atom (jsonText content)
  | float value => .atom (Layout.json.write value)
  | natural n => .atom (toString n)
  | absent => .atom "null"
  | present value => value.json
  | list items => .group "[" false (jsonItems [] items) "]"
  | record _ fields => .group "\x7b" false (jsonFields fields) "\x7d"
  | tagged name content => .group "\x7b" false [(jsonText name ++ ": ", content.json)] "\x7d"
  | taggedRecord name fields =>
    .group "\x7b" false
      [(jsonText name ++ ": ", .group "\x7b" false (jsonFields fields) "\x7d")] "\x7d"

/-- The JSON values of the items of a list, behind those that are `done`, latest first. -/
def jsonItems (done : List (String × Bracketed)) : List Outline → List (String × Bracketed)
  | [] => done.reverse
  | item :: items => jsonItems (("", item.json) :: done) items

/-- The members of a JSON object. -/
def jsonFields : List (String × Outline) → List (String × Bracketed)
  | [] => []
  | (name, value) :: fields => (jsonText name ++ ": ", value.json) :: jsonFields fields

end

/-! ### The three forms of output -/

/-- The listing on one line. -/
def oneLine (o : Outline) : String := o.listing.appendOneLine ""

/-- The listing over many lines. -/
def indented (o : Outline) : String := o.listing.appendLines ⟨4, true⟩ 0 ""

/-- JSON over many lines. -/
def prettyJson (o : Outline) : String := o.json.appendLines ⟨2, false⟩ 0 ""

end Outline

end SvLang
