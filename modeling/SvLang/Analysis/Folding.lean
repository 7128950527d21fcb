import SvLang.Analysis.Error
import SvLang.Numeric.Binary64

/-!
# Constant folding

Arithmetic on numbers is computed when a program is compiled: each tree of arithmetic becomes one
number, as wide as the widest number in it.  Operators of the other families stay, with their
operands folded.  Only operands of binary operators are visited; an expression of any other form is
left alone, with all it holds.

Arithmetic on anything but numbers is an error.  What was folded before it stays folded, so folding
returns the rewritten expression even where it fails.

## What is here

* `Rewritten`: a value as far as it was rewritten, and the error that stopped the rewriting.
* `Expr.fold`, and `Expr.foldAll` for a list.
-/

set_option autoImplicit false

namespace SvLang

/-! ## Rewriting that may stop -/

/-- A value as far as it was rewritten, and the error that stopped the rewriting, if one did. -/
structure Rewritten (α : Type) where
  value : α
  error? : Option SemanticError

namespace Rewritten

variable {α β : Type}

/-- A value that is rewritten to the end. -/
def done (a : α) : Rewritten α := ⟨a, none⟩

/-- A value at which the rewriting stopped. -/
def stopped (a : α) (e : SemanticError) : Rewritten α := ⟨a, some e⟩

/-- The rewritten value, unless the rewriting was stopped. -/
def toExcept (r : Rewritten α) : Except SemanticError α :=
  match r.error? with
  | none => .ok r.value
  | some e => .error e

/-- Goes on with the rewritten value; if the rewriting was stopped, puts what there is into
place by `orElse`. -/
def andThen (r : Rewritten α) (orElse : α → β) (next : α → Rewritten β) : Rewritten β :=
  match r.error? with
  | none => next r.value
  | some e => stopped (orElse r.value) e

end Rewritten

/-! ## Arithmetic -/

/-- The value of an operator on two numbers.  Division by zero gives an infinity or no number, as
binary64 arithmetic has it. -/
def ArithmeticOp.apply : ArithmeticOp → Float → Float → Float
  | add, x, y => x + y
  | subtract, x, y => x - y
  | multiply, x, y => x * y
  | divide, x, y => x / y
  | remainder, x, y => Binary64.remainder x y

namespace Expr

/-- How an error describes an expression. -/
def describe : Expr → String
  | identifier id => s!"'{id.name}'"
  | text .double content => "\"" ++ content ++ "\""
  | text .single content => s!"'{content}'"
  | e => e.kindName

/-- The number that arithmetic on two expressions gives.  The left operand is looked at first. -/
def evaluate (left : Expr) (op : ArithmeticOp) (right : Expr) : Except SemanticError Expr :=
  match left, right with
  | number v x, number w y => .ok (number (v.max w) (op.apply x y))
  | number .., _ => .error (.notANumber right.describe op)
  | _, _ => .error (.notANumber left.describe op)

/-- Puts an operator between two folded operands: computes arithmetic and leaves all else. -/
def combine (left : Expr) (op : BinaryOp) (right : Expr) : Rewritten Expr :=
  match op with
  | .arithmetic a =>
    match evaluate left a right with
    | .ok e => .done e
    | .error e => .stopped (binary left op right) e
  | _ => .done (binary left op right)

/-- Folds an expression, operands before their operator and from left to right. -/
def fold : Expr → Rewritten Expr
  | binary left op right =>
    left.fold.andThen (fun l ↦ binary l op right) fun l ↦
      right.fold.andThen (fun r ↦ binary l op r) fun r ↦ combine l op r
  | e => .done e

/-- Folds the expressions of a list from left to right, up to the first error. -/
def foldAll : List Expr → Rewritten (List Expr)
  | [] => .done []
  | e :: es =>
    e.fold.andThen (fun e' ↦ e' :: es) fun e' ↦
      (foldAll es).andThen (fun es' ↦ e' :: es') fun es' ↦ .done (e' :: es')

end Expr

end SvLang
