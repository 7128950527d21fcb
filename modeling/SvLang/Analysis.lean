import SvLang.Analysis.Folding
import SvLang.Analysis.SymbolTable

/-!
# Analysis of a program

The statements of a program are analyzed in order.  Declarations record their name, initializers and
elements are folded, and a value that is returned has to be a number.  Bodies of functions, loops,
conditionals, switches and blocks are not visited.

The first error ends the analysis.  What was rewritten up to there stays rewritten and what was
declared stays declared, so the outcome holds program and table even then; a statement that fails
declares nothing.

## What is here

* `Analyzed`: a value as far as it was analyzed, the table behind it, and the error if there is one.
* `Stmt.analyze` for one statement, `analyzeFrom` for a list, `Program.analyze` for a program.
-/

set_option autoImplicit false

namespace SvLang

/-- A value as far as it was analyzed, the names declared by then, and the error that ended the
analysis, if one did. -/
structure Analyzed (α : Type) where
  value : α
  symbols : SymbolTable
  error? : Option SemanticError

/-! ## Types of expressions -/

namespace Expr

/-- The type of an expression that is no name. -/
def literalType : Expr → ValueType
  | number .. => .numeric
  | text .. => .text
  | _ => .other

/-- The type of an expression.  A name has to be declared. -/
def resolve (t : SymbolTable) : Expr → Except SemanticError ValueType
  | identifier id =>
    match t.type? id.name with
    | some type => .ok type
    | none => .error (.notDeclared id.name)
  | e => .ok e.literalType

/-- The type that a declaration without a type word takes from its initializer.  The type of a
name that is not declared is left open. -/
def infer (t : SymbolTable) : Expr → ValueType
  | identifier id => (t.type? id.name).getD .other
  | e => e.literalType

end Expr

/-! ## One statement -/

/-- A folded statement that declares a name. -/
def Rewritten.declaring (r : Rewritten Stmt) (t : SymbolTable) (name : String)
    (type : ValueType) : Analyzed Stmt :=
  match r.error? with
  | none => ⟨r.value, t.insert name type, none⟩
  | some e => ⟨r.value, t, some e⟩

/-- Checks that a folded value may be returned. -/
def checkReturn (t : SymbolTable) (e : Expr) : Rewritten Expr :=
  match e.resolve t with
  | .ok .numeric => .done e
  | .ok _ => .stopped e (.invalidReturnType e.kindName)
  | .error err => .stopped e err

namespace Stmt

/-- Analyzes a declaration of a variable.  A second declaration is refused before a missing
initializer is, and that before the initializer is folded. -/
def analyzeVariable (t : SymbolTable) (id : Identifier) (type? : Option TypeName)
    (initializer? : Option Expr) : Analyzed Stmt :=
  if t.contains id.name then
    ⟨.variable id type? initializer?, t, some (.alreadyDeclared id.name)⟩
  else
    match initializer? with
    | none => ⟨.variable id type? none, t, some (.mustBeInitialized id.name)⟩
    | some e =>
      let folded := e.fold
      let type := (type?.map ValueType.ofTypeName).getD (folded.value.infer t)
      Rewritten.declaring ⟨.variable id type? (some folded.value), folded.error?⟩ t id.name type

/-- Analyzes a declaration of an array. -/
def analyzeArray (t : SymbolTable) (id : Identifier) (type? : Option TypeName)
    (elements : List Expr) : Analyzed Stmt :=
  if t.contains id.name then
    ⟨.array id type? elements, t, some (.alreadyDeclared id.name)⟩
  else
    let folded := Expr.foldAll elements
    Rewritten.declaring ⟨.array id type? folded.value, folded.error?⟩ t id.name .other

/-- Analyzes a statement behind the declarations of `t`. -/
def analyze (t : SymbolTable) : Stmt → Analyzed Stmt
  | .variable id type? initializer? => analyzeVariable t id type? initializer?
  | .array id type? elements => analyzeArray t id type? elements
  | .expr (.binary left op right) =>
    let folded := (Expr.binary left op right).fold
    ⟨.expr folded.value, t, folded.error?⟩
  | .expr (.ret (some e)) =>
    let checked := e.fold.andThen id (checkReturn t)
    ⟨.expr (.ret (some checked.value)), t, checked.error?⟩
  | s => ⟨s, t, none⟩

end Stmt

/-! ## A whole program -/

/-- Analyzes statements in order, behind those that are `done`, latest first. -/
def analyzeFrom (t : SymbolTable) (done : List Stmt) : List Stmt → Analyzed (List Stmt)
  | [] => ⟨done.reverse, t, none⟩
  | s :: rest =>
    let r := s.analyze t
    match r.error? with
    | none => analyzeFrom r.symbols (r.value :: done) rest
    | some e => ⟨done.reverse ++ r.value :: rest, r.symbols, some e⟩

/-- Analyzes a program behind the declarations of `t`. -/
def Program.analyze (t : SymbolTable) (p : Program) : Analyzed Program :=
  let r := analyzeFrom t [] p.body
  ⟨⟨r.value⟩, r.symbols, r.error?⟩

end SvLang
