import SvLang.Program

/-!
# Errors of the analysis

What can be wrong with a program that the grammar accepts.  The first such error ends the analysis.
-/

set_option autoImplicit false

namespace SvLang

/-- What is wrong with a program. -/
inductive SemanticError where
  | alreadyDeclared (name : String)
  | mustBeInitialized (name : String)
  /-- An operand of arithmetic is neither a number nor arithmetic on numbers.  The error holds how
  the operand is described. -/
  | notANumber (operand : String) (op : ArithmeticOp)
  /-- What is returned is no number.  The error holds the form of the returned expression. -/
  | invalidReturnType (found : String)
  | notDeclared (name : String)
  deriving DecidableEq, Repr

/-- The text of the error. -/
def SemanticError.message : SemanticError → String
  | alreadyDeclared name => s!"variable '{name}' is already declared"
  | mustBeInitialized name => s!"variable '{name}' must be initialized"
  | notANumber operand op =>
    s!"{operand} is not a number (operand of '" ++ (BinaryOp.arithmetic op).spelling ++ "')"
  | invalidReturnType found => s!"invalid return type: expected a number, found {found}"
  | notDeclared name => s!"variable '{name}' is not declared"

end SvLang
