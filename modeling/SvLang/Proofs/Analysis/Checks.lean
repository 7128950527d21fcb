import SvLang.Proofs.Analysis.Folding

/-!
# The checks of a statement

A statement is refused for one of four reasons: the name that it declares is already there, its
variable has no initializer, one of its expressions computes on something else than numbers, or what
it returns is no number.

## What is here

* One check for each reason, as a function of all statements: `Stmt.duplicate?`,
  `Stmt.uninitialized?`, `Stmt.foldError?` and `Stmt.returnError?`.  No check asks whether another
  one has failed.
* `Stmt.error?_analyze`: a statement is analyzed with the error of the first check that fails.
* `Stmt.symbols_of_error` and `Stmt.partlyFolded_analyze`: what a statement leaves behind where it
  fails.
-/

set_option autoImplicit false

namespace SvLang

/-! ## The order of rewriting and checking -/

namespace Rewritten

variable (r : Rewritten Stmt) (t : SymbolTable) (name : String) (type : ValueType)

theorem declaring_error? : (r.declaring t name type).error? = r.error? := by
  rw [declaring]
  cases r.error? <;> rfl

theorem declaring_value : (r.declaring t name type).value = r.value := by
  rw [declaring]
  cases r.error? <;> rfl

/-- A name is declared if and only if the rewriting has come to its end. -/
theorem declaring_symbols :
    (r.declaring t name type).symbols = if r.error? = none then t.insert name type else t := by
  rw [declaring]
  cases r.error? <;> rfl

end Rewritten

namespace Stmt

/-- The name that a statement declares. -/
def declaredName? : Stmt → Option String
  | .variable id _ _ => some id.name
  | .array id _ _ => some id.name
  | _ => none

/-- The expressions of a statement that are folded, in the order in which this happens. -/
def foldedExprs : Stmt → List Expr
  | .variable _ _ (some e) => [e]
  | .array _ _ elements => elements
  | .expr (.binary left op right) => [.binary left op right]
  | .expr (.ret (some e)) => [e]
  | _ => []

/-! ## Four checks -/

/-- A name is declared that is already there. -/
def duplicate? (t : SymbolTable) (s : Stmt) : Option SemanticError :=
  match s.declaredName? with
  | some x => if t.contains x then some (.alreadyDeclared x) else none
  | none => none

/-- A variable is declared without an initializer. -/
def uninitialized? : Stmt → Option SemanticError
  | .variable id _ none => some (.mustBeInitialized id.name)
  | _ => none

/-- An expression cannot be folded; of several, the first one counts. -/
def foldError? (s : Stmt) : Option SemanticError :=
  s.foldedExprs.findSome? fun e ↦ e.fold.error?

/-- What is returned is no number, as far as it can be folded. -/
def returnError? (t : SymbolTable) : Stmt → Option SemanticError
  | .expr (.ret (some e)) => (checkReturn t e.fold.value).error?
  | _ => none

/-- The error of the first check that fails. -/
def firstError? (t : SymbolTable) (s : Stmt) : Option SemanticError :=
  (s.duplicate? t).or (s.uninitialized?.or (s.foldError?.or (s.returnError? t)))

theorem error?_analyzeVariable (t : SymbolTable) (id : Identifier) (type? : Option TypeName)
    (initializer? : Option Expr) :
    (analyzeVariable t id type? initializer?).error? =
      (Stmt.variable id type? initializer?).firstError? t := by
  rw [analyzeVariable.eq_def, firstError?, duplicate?, declaredName?]
  by_cases hx : t.contains id.name
  · simp [hx]
  · cases initializer? with
    | none => simp [hx, uninitialized?]
    | some e =>
      simp [hx, Rewritten.declaring_error?, uninitialized?, foldError?, foldedExprs, returnError?]

theorem error?_analyzeArray (t : SymbolTable) (id : Identifier) (type? : Option TypeName)
    (elements : List Expr) :
    (analyzeArray t id type? elements).error? =
      (Stmt.array id type? elements).firstError? t := by
  rw [analyzeArray, firstError?, duplicate?, declaredName?]
  by_cases hx : t.contains id.name
  · simp [hx]
  · simp [hx, Rewritten.declaring_error?, uninitialized?, foldError?, foldedExprs, returnError?,
      Expr.error?_foldAll]

/-- **A statement fails with the error of its first check that fails**, and if none does, it does
not fail. -/
theorem error?_analyze (t : SymbolTable) (s : Stmt) :
    (s.analyze t).error? = s.firstError? t := by
  cases s with
  | «variable» id type? initializer? => exact error?_analyzeVariable t id type? initializer?
  | array id type? elements => exact error?_analyzeArray t id type? elements
  | expr e =>
    cases e with
    | binary left op right =>
      simp [analyze, firstError?, duplicate?, declaredName?, uninitialized?, foldError?,
        foldedExprs, returnError?]
    | ret value? =>
      cases value? with
      | none => rfl
      | some e =>
        simp [analyze, Rewritten.error?_andThen, firstError?, duplicate?, declaredName?,
          uninitialized?, foldError?, foldedExprs, returnError?]
    | _ => rfl
  | _ => rfl

/-! ## What is left behind -/

/-- The second statement is the first one with expressions that are partly folded.  All else is the
same: its form, its name, its declared type, and the number of its elements. -/
inductive PartlyFolded : Stmt → Stmt → Prop where
  | variable (id : Identifier) (type? : Option TypeName) {initializer? initializer'? : Option Expr}
      (h : Option.Rel Expr.PartlyFolded initializer? initializer'?) :
      PartlyFolded (.variable id type? initializer?) (.variable id type? initializer'?)
  | array (id : Identifier) (type? : Option TypeName) {elements elements' : List Expr}
      (h : List.Forall₂ Expr.PartlyFolded elements elements') :
      PartlyFolded (.array id type? elements) (.array id type? elements')
  | expr {e e' : Expr} (h : e.PartlyFolded e') : PartlyFolded (.expr e) (.expr e')
  | ret {e e' : Expr} (h : e.PartlyFolded e') :
      PartlyFolded (.expr (.ret (some e))) (.expr (.ret (some e')))
  | same (s : Stmt) : PartlyFolded s s

/-- The check of a folded value leaves the value as it is. -/
theorem partlyFolded_checked (t : SymbolTable) (e : Expr) :
    e.PartlyFolded (e.fold.andThen id (checkReturn t)).value := by
  have hvalue : (e.fold.andThen id (checkReturn t)).value = e.fold.value := by
    rw [Rewritten.andThen]
    cases e.fold.error? with
    | some err => rfl
    | none =>
      simp only [checkReturn]
      split <;> rfl
  rw [hvalue]
  exact e.partlyFolded_fold

/-- A statement that is no declaration declares nothing. -/
theorem symbols_of_declaredName?_eq_none {t : SymbolTable} {s : Stmt}
    (h : s.declaredName? = none) : (s.analyze t).symbols = t := by
  cases s with
  | «variable» | array => cases h
  | expr e =>
    cases e with
    | ret value? => cases value? <;> rfl
    | _ => rfl
  | _ => rfl

/-- A declaration that fails declares nothing. -/
theorem symbols_of_error {t : SymbolTable} {s : Stmt} {e : SemanticError}
    (h : (s.analyze t).error? = some e) : (s.analyze t).symbols = t := by
  cases s with
  | «variable» id type? initializer? =>
    rw [analyze, analyzeVariable.eq_def] at h ⊢
    by_cases hx : t.contains id.name
    · simp [hx]
    · cases initializer? with
      | none => simp [hx]
      | some init =>
        simp only [hx, Bool.false_eq_true, if_false, Rewritten.declaring_error?] at h ⊢
        rw [Rewritten.declaring_symbols, if_neg (by simp [h])]
  | array id type? elements =>
    rw [analyze, analyzeArray] at h ⊢
    by_cases hx : t.contains id.name
    · simp [hx]
    · simp only [hx, Bool.false_eq_true, if_false, Rewritten.declaring_error?] at h ⊢
      rw [Rewritten.declaring_symbols, if_neg (by simp [h])]
  | _ => exact symbols_of_declaredName?_eq_none rfl

/-- Analyzing a statement only folds its expressions. -/
theorem partlyFolded_analyze (t : SymbolTable) (s : Stmt) :
    s.PartlyFolded (s.analyze t).value := by
  cases s with
  | «variable» id type? initializer? =>
    rw [analyze, analyzeVariable.eq_def]
    by_cases hx : t.contains id.name
    · rw [if_pos hx]
      exact .same _
    · rw [if_neg hx]
      cases initializer? with
      | none => exact .same _
      | some e =>
        simp only [Rewritten.declaring_value]
        exact .variable id type? (.some e.partlyFolded_fold)
  | array id type? elements =>
    rw [analyze, analyzeArray]
    by_cases hx : t.contains id.name
    · rw [if_pos hx]
      exact .same _
    · rw [if_neg hx]
      simp only [Rewritten.declaring_value]
      exact .array id type? (Expr.partlyFolded_foldAll elements)
  | expr e =>
    cases e with
    | binary left op right => exact .expr (Expr.partlyFolded_fold _)
    | ret value? =>
      cases value? with
      | none => exact .same _
      | some e => exact .ret (partlyFolded_checked t e)
    | _ => exact .same _
  | _ => exact .same _

end Stmt

end SvLang
