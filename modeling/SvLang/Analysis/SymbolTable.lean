import SvLang.Analysis.Error
import Std.Data.ExtTreeMap

/-!
# The table of declared names

A program has one flat table of names.  A name is declared once and keeps its type; no name is ever
taken out.

## What is here

* `ValueType`: the coarse types that matter when a value is returned.
* `SymbolTable`, with one equation for each operation in terms of `type?`, the view of the table by
  which two tables are equal (`SymbolTable.ext_type?`).
-/

set_option autoImplicit false

namespace SvLang

/-! ## Coarse types -/

/-- What a returned value is checked for. -/
inductive ValueType where
  | numeric | text | other
  deriving DecidableEq, Repr

namespace ValueType

/-- The name of the type in reports. -/
def name : ValueType → String
  | numeric => "Numeric" | text => "Text" | other => "Other"

/-- The coarse type of a declared type. -/
def ofTypeName : TypeName → ValueType
  | .int | .float | .double => numeric
  | .char | .string => text
  | .bool => other

/-- The numeric types are those whose coarse type is numeric. -/
theorem ofTypeName_eq_numeric_iff (t : TypeName) : ofTypeName t = numeric ↔ t.isNumeric := by
  cases t <;> simp [ofTypeName, TypeName.isNumeric]

end ValueType

/-! ## The table -/

/-- The names that have been declared, with their types. -/
structure SymbolTable where
  entries : Std.ExtTreeMap String ValueType

namespace SymbolTable

/-- The table without a name. -/
def empty : SymbolTable := ⟨∅⟩

/-- The type of a name, if it has been declared. -/
def type? (t : SymbolTable) (name : String) : Option ValueType := t.entries[name]?

/-- Whether a name has been declared. -/
def contains (t : SymbolTable) (name : String) : Bool := t.entries.contains name

/-- The table with one more name. -/
def insert (t : SymbolTable) (name : String) (type : ValueType) : SymbolTable :=
  ⟨t.entries.insert name type⟩

/-- Declares a name.  If the name is already there, it keeps its type and the declaration is
refused. -/
def declare (t : SymbolTable) (name : String) (type : ValueType) :
    Except SemanticError SymbolTable :=
  if t.contains name then .error (.alreadyDeclared name) else .ok (t.insert name type)

/-- How many names have been declared. -/
def size (t : SymbolTable) : Nat := t.entries.size

/-- Whether no name has been declared. -/
def isEmpty (t : SymbolTable) : Bool := t.entries.isEmpty

/-- The names with their types, in the order of the names. -/
def toList (t : SymbolTable) : List (String × ValueType) := t.entries.toList

/-- The names in order. -/
def names (t : SymbolTable) : List String := t.entries.keys

/-- Two tables are equal if they know the same names with the same types. -/
theorem ext_type? {t u : SymbolTable} (h : ∀ name, t.type? name = u.type? name) : t = u := by
  cases t
  cases u
  exact congrArg SymbolTable.mk (Std.ExtTreeMap.ext_getElem? h)

@[simp] theorem type?_empty (name : String) : empty.type? name = none := by
  simp [type?, empty]

theorem type?_insert (t : SymbolTable) (name : String) (type : ValueType) (other : String) :
    (t.insert name type).type? other = if name = other then some type else t.type? other := by
  simp [type?, insert, Std.ExtTreeMap.getElem?_insert]

theorem contains_eq (t : SymbolTable) (name : String) :
    t.contains name = (t.type? name).isSome := by
  simp [contains, type?, Std.ExtTreeMap.isSome_getElem?_eq_contains]

end SymbolTable

end SvLang
