import SvLang.Token

/-!
# Programs

A program is a list of statements, and statements are built from expressions.  Parentheses,
separators and keywords have left no trace in these trees; grouping is in their shape.

## What is here

* `BinaryOp`: the operators between two operands, in four families.  Arithmetic can be computed
  when the program is compiled, so "is this arithmetic?" is a pattern.
* `Expr`, `Stmt`, `Program`, and the few questions that later passes ask of a tree.
-/

set_option autoImplicit false

namespace SvLang

/-! ## Operators -/

/-- The operators that compute a number from two. -/
inductive ArithmeticOp where
  | add | subtract | multiply | divide | remainder
  deriving DecidableEq, Repr

/-- The operators that compute a number and store it on their left. -/
inductive AssignmentOp where
  | add | subtract | multiply | divide
  deriving DecidableEq, Repr

/-- The operators that count a variable up or down. -/
inductive StepOp where
  | increment | decrement
  deriving DecidableEq, Repr

/-- The operators that compare two values. -/
inductive ComparisonOp where
  | less | greater | equal | notEqual
  deriving DecidableEq, Repr

/-- The operators between two operands.  A step operator is one of them, because `x++` is kept as
`x`, the operator, and an expression without operand on its right. -/
inductive BinaryOp where
  | arithmetic (op : ArithmeticOp)
  | assignment (op : AssignmentOp)
  | step (op : StepOp)
  | comparison (op : ComparisonOp)
  deriving DecidableEq, Repr

/-- The name of the operator in tree dumps. -/
def StepOp.name : StepOp → String
  | increment => "Increment"
  | decrement => "Decrement"

/-- The symbol of the operator. -/
def StepOp.symbol : StepOp → Symbol
  | increment => .plusPlus
  | decrement => .minusMinus

namespace BinaryOp

/-- The name of the operator in tree dumps. -/
def name : BinaryOp → String
  | arithmetic .add => "Add" | arithmetic .subtract => "Sub"
  | arithmetic .multiply => "Mul" | arithmetic .divide => "Div"
  | arithmetic .remainder => "Mod"
  | assignment .add => "AddAssign" | assignment .subtract => "SubAssign"
  | assignment .multiply => "MulAssign" | assignment .divide => "DivAssign"
  | step op => op.name
  | comparison .less => "Lt" | comparison .greater => "Gt"
  | comparison .equal => "Eq" | comparison .notEqual => "Ne"

/-- The symbol of the operator. -/
def symbol : BinaryOp → Symbol
  | arithmetic .add => .plus | arithmetic .subtract => .minus
  | arithmetic .multiply => .star | arithmetic .divide => .slash
  | arithmetic .remainder => .percent
  | assignment .add => .plusAssign | assignment .subtract => .minusAssign
  | assignment .multiply => .starAssign | assignment .divide => .slashAssign
  | step op => op.symbol
  | comparison .less => .less | comparison .greater => .greater
  | comparison .equal => .equal | comparison .notEqual => .notEqual

/-- How the operator is written. -/
def spelling (op : BinaryOp) : String := String.ofList op.symbol.spelling

/-- Whether the operator computes a number from two. -/
def isArithmetic : BinaryOp → Bool
  | arithmetic _ => true
  | _ => false

/-- Every operator, family by family. -/
def all : List BinaryOp :=
  [arithmetic .add, arithmetic .subtract, arithmetic .multiply, arithmetic .divide,
    arithmetic .remainder, assignment .add, assignment .subtract, assignment .multiply,
    assignment .divide, step .increment, step .decrement, comparison .less, comparison .greater,
    comparison .equal, comparison .notEqual]

theorem mem_all (op : BinaryOp) : op ∈ all := by
  cases op with
  | arithmetic op | assignment op | step op | comparison op => cases op <;> decide

end BinaryOp

/-! ## Expressions -/

/-- A name in a program.  Only a parameter of a function carries its type with it. -/
structure Identifier where
  name : String
  declaredType? : Option TypeName := none
  deriving DecidableEq, Repr

/-- Expressions. -/
inductive Expr where
  /-- `left op right`. -/
  | binary (left : Expr) (op : BinaryOp) (right : Expr)
  /-- `++x`, or `x++` that steps a loop; without operand, what stands to the right of a step
  operator. -/
  | unary (op : StepOp) (operand? : Option Expr)
  | identifier (id : Identifier)
  | number (width : Width) (value : Float)
  | text (quote : Quote) (content : String)
  | call (callee : Identifier) (arguments : List Expr)
  | ret (value? : Option Expr)

namespace Expr

/-- The name of the expression's form in messages and tree dumps. -/
def kindName : Expr → String
  | binary .. => "BinaryExpr"
  | unary .. => "UnaryExpr"
  | identifier _ => "Identifier"
  | number .numeric _ => "NumericLiteral"
  | number .float _ => "FloatLiteral"
  | number .double _ => "DoubleLiteral"
  | text .double _ => "StringLiteral"
  | text .single _ => "CharLiteral"
  | call .. => "FunctionCall"
  | ret _ => "Return"

/-- Whether the expression is a number written out. -/
def isNumber : Expr → Bool
  | number .. => true
  | _ => false

end Expr

/-! ## Statements -/

mutual

/-- Statements. -/
inductive Stmt where
  /-- `type name = initializer;` or `type name;`.  Without a type word the declaration starts with
  `sv`. -/
  | variable (id : Identifier) (type? : Option TypeName) (initializer? : Option Expr)
  /-- `type name[] = { elements };`. -/
  | array (id : Identifier) (type? : Option TypeName) (elements : List Expr)
  | function (id : Identifier) (parameters : List Identifier) (body : List Stmt)
  | whileLoop (condition : Expr) (body : List Stmt)
  /-- An `else if` is an else branch of one statement. -/
  | ifElse (condition : Expr) (thenBody : List Stmt) (elseBody? : Option (List Stmt))
  | forLoop (initializer? : Option Stmt) (condition? increment? : Option Expr) (body : List Stmt)
  | switch (subject : Expr) (cases : List Case) (default? : Option (List Stmt))
  | block (body : List Stmt)
  /-- A bare `;`. -/
  | empty
  | expr (e : Expr)

/-- One case of a switch: a value, and the statements before its `break`. -/
inductive Case where
  | mk (value : Expr) (body : List Stmt)

end

/-- A program: its statements in order. -/
structure Program where
  body : List Stmt

end SvLang
