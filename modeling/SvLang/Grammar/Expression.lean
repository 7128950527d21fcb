import SvLang.Grammar.Parser
import SvLang.Numeric.Decimal
import SvLang.Program

/-!
# The grammar of expressions

Binary operators stand on three tiers, and all of them group to the left:

* comparison: `==`, `!=`, `<`, `>`,
* addition: `+`, `-`, `+=`, `-=`, and `++` and `--` behind an operand,
* multiplication: `*`, `/`, `%`, `*=`, `/=`,

with primary expressions below.  A primary expression may hold whole expressions, so the grammar is
recursive.  The recursion is cut open here: `Rules` are the rules for everything that lies one level
of nesting deeper, and each rule of this file is given those.  `SvLang.Grammar` closes the circle,
level by level.
-/

set_option autoImplicit false

namespace SvLang

open SvLang.Parser

/-! ## One level deeper -/

/-- The rules for what lies one level of nesting deeper: a whole expression, the operand of a step
operator in front of it, a statement, and the `if` that follows an `else`.  Each takes at least one
token. -/
structure Rules where
  expr : Parser Expr
  operand : Parser Expr
  stmt : Parser Stmt
  elseIf : Parser Stmt
  expr_shrinks : expr.Shrinks
  operand_shrinks : operand.Shrinks
  stmt_shrinks : stmt.Shrinks
  elseIf_shrinks : elseIf.Shrinks

/-- Where the limit of nesting is reached, no rule accepts anything. -/
def Rules.exhausted (limit : Nat) : Rules where
  expr := fail (.tooDeep limit)
  operand := fail (.tooDeep limit)
  stmt := fail (.tooDeep limit)
  elseIf := fail (.tooDeep limit)
  expr_shrinks := shrinks_fail _
  operand_shrinks := shrinks_fail _
  stmt_shrinks := shrinks_fail _
  elseIf_shrinks := shrinks_fail _

namespace Rules

variable (R : Rules)

theorem keeps_expr : R.expr.Keeps := R.expr_shrinks.keeps

theorem keeps_stmt : R.stmt.Keeps := R.stmt_shrinks.keeps

/-! ## Primary expressions -/

/-- The arguments of a call, behind the first parenthesis. -/
def callArguments (callee : Identifier) : Parser Expr := do
  let arguments ← listUntil (.symbol .closeParen) R.expr R.keeps_expr
  let _ ← expect .argumentsClose
  return .call callee arguments

/-- A call or a plain name, behind the name itself. -/
def nameOrCall (callee : Identifier) : Parser Expr :=
  onKind (.symbol .openParen) (R.callArguments callee) (pure (.identifier callee))

/-- An expression in parentheses, behind the first of them.  The parentheses leave no trace. -/
def group : Parser Expr := do
  let e ← R.expr
  let _ ← expect .groupClose
  return e

/-- What a `return` gives back, behind that word.  The semicolon is left to the statement. -/
def returned : Parser Expr := do
  if (← kind) = .symbol .semicolon then return .ret none
  let value ← R.expr
  return .ret (some value)

/-- The rule for a primary expression that starts with this token.  A number token whose text is
no number starts none. -/
def primaryRule? (t : Token) : Option (Parser Expr) :=
  match t.kind with
  | .identifier => some (R.nameOrCall ⟨t.text, none⟩)
  | .number width => (Decimal.readFloat? t.text.toList).map fun x ↦ pure (.number width x)
  | .text quote => some (pure (.text quote t.text))
  | .symbol .plusPlus => some ((fun e ↦ .unary .increment (some e)) <$> R.operand)
  | .symbol .minusMinus => some ((fun e ↦ .unary .decrement (some e)) <$> R.operand)
  | .symbol .openParen => some R.group
  | .keyword .returnWord => some R.returned
  | _ => none

/-- A primary expression. -/
def primary : Parser Expr := branch R.primaryRule? unexpected

/-! ## Operators -/

/-- The operators of multiplication. -/
def multiplicativeOp? : TokenKind → Option BinaryOp
  | .symbol .star => some (.arithmetic .multiply)
  | .symbol .slash => some (.arithmetic .divide)
  | .symbol .percent => some (.arithmetic .remainder)
  | .symbol .starAssign => some (.assignment .multiply)
  | .symbol .slashAssign => some (.assignment .divide)
  | _ => none

/-- The operators of addition. -/
def additiveOp? : TokenKind → Option BinaryOp
  | .symbol .plus => some (.arithmetic .add)
  | .symbol .minus => some (.arithmetic .subtract)
  | .symbol .plusAssign => some (.assignment .add)
  | .symbol .minusAssign => some (.assignment .subtract)
  | .symbol .plusPlus => some (.step .increment)
  | .symbol .minusMinus => some (.step .decrement)
  | _ => none

/-- The operators of comparison. -/
def comparisonOp? : TokenKind → Option BinaryOp
  | .symbol .less => some (.comparison .less)
  | .symbol .greater => some (.comparison .greater)
  | .symbol .equal => some (.comparison .equal)
  | .symbol .notEqual => some (.comparison .notEqual)
  | _ => none

/-- The rule by which an operator at the front extends what stands to its left.  A step operator
has no operand on its right. -/
def operation? (op? : TokenKind → Option BinaryOp) (operand : Parser Expr) (t : Token) :
    Option (Expr → Parser Expr) :=
  (op? t.kind).map fun op left ↦
    match op with
    | .step step => pure (.binary left op (.unary step none))
    | _ => (fun right ↦ .binary left op right) <$> operand

theorem keeps_operation? {op? : TokenKind → Option BinaryOp} {operand : Parser Expr}
    (ho : operand.Keeps) (t : Token) (rule : Expr → Parser Expr)
    (h : operation? op? operand t = some rule) (left : Expr) : (rule left).Keeps := by
  obtain ⟨op, -, rfl⟩ := Option.map_eq_some_iff.1 h
  dsimp only
  split
  · exact keeps_pure _
  · exact ho.map _

/-- One tier: operands with operators of the tier between them, grouped to the left. -/
def tier (op? : TokenKind → Option BinaryOp) (operand : Parser Expr) (ho : operand.Shrinks) :
    Parser Expr := do
  let first ← operand
  extend (operation? op? operand) (keeps_operation? ho.keeps) first

theorem shrinks_tier (op? : TokenKind → Option BinaryOp) (operand : Parser Expr)
    (ho : operand.Shrinks) : (tier op? operand ho).Shrinks :=
  ho.bind fun _ ↦ keeps_extend _ _ _

/-! ## The tiers -/

theorem keeps_callArguments (callee : Identifier) : (R.callArguments callee).Keeps :=
  (keeps_listUntil _ _ _).bind fun _ ↦ (keeps_expect _).bind fun _ ↦ keeps_pure _

theorem keeps_nameOrCall (callee : Identifier) : (R.nameOrCall callee).Keeps :=
  keeps_onKind (R.keeps_callArguments callee) (keeps_pure _)

theorem keeps_group : R.group.Keeps :=
  R.keeps_expr.bind fun _ ↦ (keeps_expect _).bind fun _ ↦ keeps_pure _

theorem keeps_returned : R.returned.Keeps := by
  refine keeps_kind.bind fun k ↦ ?_
  split
  · exact keeps_pure _
  · exact R.keeps_expr.bind fun _ ↦ keeps_pure _

theorem shrinks_primary : R.primary.Shrinks := by
  refine shrinks_branch (fun t rule h ↦ ?_) shrinks_unexpected
  rw [primaryRule?] at h
  split at h
  · cases h
    exact R.keeps_nameOrCall _
  · obtain ⟨x, -, rfl⟩ := Option.map_eq_some_iff.1 h
    exact keeps_pure _
  · cases h
    exact keeps_pure _
  · cases h
    exact R.operand_shrinks.keeps.map _
  · cases h
    exact R.operand_shrinks.keeps.map _
  · cases h
    exact R.keeps_group
  · cases h
    exact R.keeps_returned
  · cases h

/-- Primary expressions with operators of multiplication between them. -/
def multiplicative : Parser Expr := tier multiplicativeOp? R.primary R.shrinks_primary

theorem shrinks_multiplicative : R.multiplicative.Shrinks := shrinks_tier _ _ _

/-- Expressions of the multiplicative tier with operators of addition between them. -/
def additive : Parser Expr := tier additiveOp? R.multiplicative R.shrinks_multiplicative

theorem shrinks_additive : R.additive.Shrinks := shrinks_tier _ _ _

/-- Expressions of the additive tier with operators of comparison between them: the whole
expression. -/
def comparison : Parser Expr := tier comparisonOp? R.additive R.shrinks_additive

theorem shrinks_comparison : R.comparison.Shrinks := shrinks_tier _ _ _

end Rules

end SvLang
