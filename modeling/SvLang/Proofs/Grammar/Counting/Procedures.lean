import SvLang.Proofs.Grammar.Congruence
import SvLang.Proofs.Grammar.Counting.Counterpart

/-!
# The grammar with a counter

The rules of the grammar as procedures that share one counter.  Each is the rule of its name over
the operations of `Counting`; what reads no expression and no statement is the parser itself.  Only
the four procedures of `Procedures.outer` touch the counter, through `nested`.  The limit is checked
against the counter and not against the depth of the recursion, which has nothing but to be deep
enough.

Behind the procedures of each part of the grammar there is only said that they are made as the rules
are (`Counterpart.block` and so on).
-/

set_option autoImplicit false

namespace SvLang

open SvLang.Parser (expect kind unexpected)

namespace Procedures

open SvLang.Counting

variable (C : Procedures) {R : Rules}

/-! ## Expressions -/

/-- The arguments of a call, behind the first parenthesis. -/
def callArguments (callee : Identifier) : Counting Expr := do
  let arguments ← listUntil (.symbol .closeParen) C.expr
  let _ ← expect .argumentsClose
  return .call callee arguments

/-- A call or a plain name, behind the name itself. -/
def nameOrCall (callee : Identifier) : Counting Expr :=
  onKind (.symbol .openParen) (C.callArguments callee) (pure (.identifier callee))

/-- An expression in parentheses, behind the first of them. -/
def group : Counting Expr := do
  let e ← C.expr
  let _ ← expect .groupClose
  return e

/-- What a `return` gives back, behind that word. -/
def returned : Counting Expr := do
  if (← kind) = .symbol .semicolon then return .ret none
  let value ← C.expr
  return .ret (some value)

/-- The procedure for a primary expression that starts with this token. -/
def primaryRule? (t : Token) : Option (Counting Expr) :=
  match t.kind with
  | .identifier => some (C.nameOrCall ⟨t.text, none⟩)
  | .number width => (Decimal.readFloat? t.text.toList).map fun x ↦ pure (.number width x)
  | .text quote => some (pure (.text quote t.text))
  | .symbol .plusPlus => some ((fun e ↦ .unary .increment (some e)) <$> C.operand)
  | .symbol .minusMinus => some ((fun e ↦ .unary .decrement (some e)) <$> C.operand)
  | .symbol .openParen => some C.group
  | .keyword .returnWord => some C.returned
  | _ => none

/-- A primary expression. -/
def primary : Counting Expr := branch C.primaryRule? unexpected.counting

/-- The procedure by which an operator at the front extends what stands to its left. -/
def operation? (op? : TokenKind → Option BinaryOp) (operand : Counting Expr) (t : Token) :
    Option (Expr → Counting Expr) :=
  (op? t.kind).map fun op left ↦
    match op with
    | .step step => pure (.binary left op (.unary step none))
    | _ => (fun right ↦ .binary left op right) <$> operand

/-- One tier: operands with operators of the tier between them, grouped to the left. -/
def tier (op? : TokenKind → Option BinaryOp) (operand : Counting Expr) : Counting Expr := do
  let first ← operand
  extend (operation? op? operand) first

/-- Primary expressions with operators of multiplication between them. -/
def multiplicative : Counting Expr := tier Rules.multiplicativeOp? C.primary

/-- Expressions of the multiplicative tier with operators of addition between them. -/
def additive : Counting Expr := tier Rules.additiveOp? C.multiplicative

/-- Expressions of the additive tier with operators of comparison between them. -/
def comparison : Counting Expr := tier Rules.comparisonOp? C.additive

variable {C}

theorem Counterpart.callArguments (callee : Identifier) :
    Counterpart C R (C.callArguments callee) (R.callArguments callee) :=
  .bind (.listUntil .expr) fun _ ↦ .bind (.parser _) fun _ ↦ .pure _

theorem Counterpart.nameOrCall (callee : Identifier) :
    Counterpart C R (C.nameOrCall callee) (R.nameOrCall callee) :=
  .onKind (.callArguments callee) (.pure _)

theorem Counterpart.group : Counterpart C R C.group R.group :=
  .bind .expr fun _ ↦ .bind (.parser _) fun _ ↦ .pure _

theorem Counterpart.returned : Counterpart C R C.returned R.returned := by
  refine .bind (.parser kind) fun k ↦ ?_
  split
  · exact .pure _
  · exact .bind .expr fun _ ↦ .pure _

theorem counterpart_primaryRule? (t : Token) :
    Option.Rel (Counterpart C R) (C.primaryRule? t) (R.primaryRule? t) := by
  rw [Procedures.primaryRule?, Rules.primaryRule?]
  cases t.kind with
  | identifier => exact .some (.nameOrCall _)
  | number width =>
    cases Decimal.readFloat? t.text.toList with
    | none => exact .none
    | some x => exact .some (.pure _)
  | text quote => exact .some (.pure _)
  | symbol s =>
    cases s with
    | plusPlus | minusMinus => exact .some (.map .operand _)
    | openParen => exact .some .group
    | _ => exact .none
  | keyword w =>
    cases w with
    | returnWord => exact .some .returned
    | _ => exact .none
  | typeName | eof => exact .none

theorem Counterpart.primary : Counterpart C R C.primary R.primary :=
  .choice counterpart_primaryRule? (.parser _)

theorem Counterpart.tier {op? : TokenKind → Option BinaryOp} {operand : Counting Expr}
    {operand' : Parser Expr} {ho : operand'.Shrinks} (h : Counterpart C R operand operand') :
    Counterpart C R (Procedures.tier op? operand) (Rules.tier op? operand' ho) := by
  refine .bind h fun first ↦ .extension (fun t ↦ ?_) first
  rw [Procedures.operation?, Rules.operation?]
  cases op? t.kind with
  | none => exact .none
  | some op =>
    refine .some fun left ↦ ?_
    cases op with
    | step op => exact .pure _
    | arithmetic | assignment | comparison => exact h.map _

theorem Counterpart.multiplicative : Counterpart C R C.multiplicative R.multiplicative :=
  .tier .primary

theorem Counterpart.additive : Counterpart C R C.additive R.additive := .tier .multiplicative

theorem Counterpart.comparison : Counterpart C R C.comparison R.comparison := .tier .additive

variable (C)

/-! ## Blocks and declarations -/

/-- The statements of a block, behind its first brace, and the last brace. -/
def blockBody : Counting (List Stmt) := do
  let body ← manyUntil (fun k ↦ k = .symbol .closeBrace ∨ k = .eof) C.stmt
  let _ ← expect .blockClose
  return body

/-- Statements between braces. -/
def block : Counting (List Stmt) := do
  let _ ← expect .blockOpen
  C.blockBody

/-- What follows the name of a variable with an initializer, behind the `=`. -/
def initialized (name : String) (type? : Option TypeName) : Counting Stmt := do
  let initializer ← C.expr
  Rules.declarationEnd name
  return .variable ⟨name, none⟩ type? (some initializer)

/-- What follows the name of an array, behind the first bracket. -/
def arrayElements (name : String) (type? : Option TypeName) : Counting Stmt := do
  let _ ← expect .arrayBracket
  let _ ← expect .arrayAssign
  let _ ← expect .arrayOpen
  let elements ← listUntil (.symbol .closeBrace) C.expr
  let _ ← expect .arrayClose
  Rules.declarationEnd name
  return .array ⟨name, none⟩ type? elements

/-- A declaration of a variable or an array, behind the word that starts it. -/
def declaration (type? : Option TypeName) : Counting Stmt := do
  let name ← expect .name
  onKind (.symbol .assign) (C.initialized name type?) <|
    onKind (.symbol .openBracket) (C.arrayElements name type?)
      (Rules.uninitialized name type?).counting

variable {C}

theorem Counterpart.blockBody : Counterpart C R C.blockBody R.blockBody :=
  .bind (.manyUntil .stmt) fun _ ↦ .bind (.parser _) fun _ ↦ .pure _

theorem Counterpart.block : Counterpart C R C.block R.block :=
  .bind (.parser _) fun _ ↦ .blockBody

theorem Counterpart.initialized (name : String) (type? : Option TypeName) :
    Counterpart C R (C.initialized name type?) (R.initialized name type?) :=
  .bind .expr fun _ ↦ .bind (.parser _) fun _ ↦ .pure _

theorem Counterpart.arrayElements (name : String) (type? : Option TypeName) :
    Counterpart C R (C.arrayElements name type?) (R.arrayElements name type?) :=
  .bind (.parser _) fun _ ↦ .bind (.parser _) fun _ ↦ .bind (.parser _) fun _ ↦
    .bind (.listUntil .expr) fun _ ↦ .bind (.parser _) fun _ ↦ .bind (.parser _) fun _ ↦ .pure _

theorem Counterpart.declaration (type? : Option TypeName) :
    Counterpart C R (C.declaration type?) (R.declaration type?) :=
  .bind (.parser _) fun _ ↦
    .onKind (.initialized _ _) (.onKind (.arrayElements _ _) (.parser _))

variable (C)

/-! ## Functions, conditions and loops -/

/-- The declaration of a function, behind the word `function`. -/
def function : Counting Stmt := do
  let name ← expect .name
  let _ ← expect .parametersOpen
  let parameters ← listUntil (.symbol .closeParen) Rules.parameter.counting
  let _ ← expect .parametersClose
  let body ← C.block
  return .function ⟨name, none⟩ parameters body

/-- An expression in parentheses, the first of which has to stand at `place`. -/
def condition (place : Landmark) : Counting Expr := do
  let _ ← expect place
  let e ← C.expr
  let _ ← expect .conditionClose
  return e

/-- A `while` loop, behind that word. -/
def whileLoop : Counting Stmt := do
  let e ← C.condition .whileOpen
  let body ← C.block
  return .whileLoop e body

/-- What follows the word `else`: a block, or an `if` that is a block by itself. -/
def elseBranch : Counting (List Stmt) := do
  if (← kind) = .keyword .ifWord then
    let nested ← C.elseIf
    return [nested]
  else C.block

/-- The `else` branch of an `if`, if it has one. -/
def elseBranch? : Counting (Option (List Stmt)) :=
  onKind (.keyword .elseWord) (some <$> C.elseBranch) (pure none)

/-- An `if`, behind that word. -/
def ifElse : Counting Stmt := do
  let e ← C.condition .ifOpen
  let thenBody ← C.block
  let elseBody? ← C.elseBranch?
  return .ifElse e thenBody elseBody?

/-- An `if` with that word, which has to stand at the front. -/
def ifStatement : Counting Stmt := onKind (.keyword .ifWord) C.ifElse unexpected.counting

variable {C}

theorem Counterpart.function : Counterpart C R C.function R.function :=
  .bind (.parser _) fun _ ↦ .bind (.parser _) fun _ ↦ .bind (.listUntil (.parser _)) fun _ ↦
    .bind (.parser _) fun _ ↦ .bind .block fun _ ↦ .pure _

theorem Counterpart.condition (place : Landmark) :
    Counterpart C R (C.condition place) (R.condition place) :=
  .bind (.parser _) fun _ ↦ .bind .expr fun _ ↦ .bind (.parser _) fun _ ↦ .pure _

theorem Counterpart.whileLoop : Counterpart C R C.whileLoop R.whileLoop :=
  .bind (.condition _) fun _ ↦ .bind .block fun _ ↦ .pure _

theorem Counterpart.elseBranch : Counterpart C R C.elseBranch R.elseBranch := by
  refine .bind (.parser kind) fun k ↦ ?_
  split
  · exact .bind .elseIf fun _ ↦ .pure _
  · exact .block

theorem Counterpart.elseBranch? : Counterpart C R C.elseBranch? R.elseBranch? :=
  .onKind (.map .elseBranch _) (.pure _)

theorem Counterpart.ifElse : Counterpart C R C.ifElse R.ifElse :=
  .bind (.condition _) fun _ ↦ .bind .block fun _ ↦ .bind .elseBranch? fun _ ↦ .pure _

theorem Counterpart.ifStatement : Counterpart C R C.ifStatement R.ifStatement :=
  .onKind .ifElse (.parser _)

variable (C)

/-! ## `for` loops -/

/-- A loop initializer that is there. -/
def forInitializer : Counting Stmt := do
  match ← kind with
  | .keyword .svWord | .typeName _ => C.stmt
  | _ =>
    let e ← C.expr
    let _ ← expect .forInitializerEnd
    return .expr e

/-- The first part of a loop header with its semicolon. -/
def forInitializer? : Counting (Option Stmt) :=
  onKind (.symbol .semicolon) (pure none) (some <$> C.forInitializer)

/-- What a loop condition compares its name with, behind the operator. -/
def forBound (name : Identifier) (op : ComparisonOp) : Counting (Option Expr) :=
  (fun bound ↦ some (.binary (.identifier name) (.comparison op) bound)) <$> C.additive

/-- What follows the name that a loop condition starts with. -/
def forComparison (name : Identifier) : Counting (Option Expr) :=
  branch (fun t ↦ (Rules.loopComparison? t.kind).map (C.forBound name))
    (Rules.conditionEnd (some (.identifier name))).counting

/-- The second part of a loop header, without its semicolon. -/
def forCondition? : Counting (Option Expr) :=
  branch (fun t ↦ if t.kind = .identifier then some (C.forComparison ⟨t.text, none⟩) else none)
    (Rules.conditionEnd none).counting

/-- The third part of a loop header.  A name with a step operator behind it is the whole part. -/
def forIncrement? : Counting (Option Expr) := fun d ts ↦
  if (Parser.front ts).kind = .symbol .closeParen then some ⟨.ok (none, ts), d, d⟩
  else
    match Rules.steppedName? ts with
    | some (e, rest) => some ⟨.ok (some e, rest), d, d⟩
    | none => (some <$> C.expr) d ts

/-- A `for` loop, behind that word. -/
def forLoop : Counting Stmt := do
  let _ ← expect .forOpen
  let initializer? ← C.forInitializer?
  let condition? ← C.forCondition?
  let _ ← expect .forConditionEnd
  let increment? ← C.forIncrement?
  let _ ← expect .forClose
  let body ← C.block
  return .forLoop initializer? condition? increment? body

variable {C}

theorem Counterpart.forInitializer : Counterpart C R C.forInitializer R.forInitializer := by
  have hexpr : Counterpart C R
      (C.expr >>= fun e ↦ (expect .forInitializerEnd).counting >>= fun _ ↦ Pure.pure (Stmt.expr e))
      (R.expr >>= fun e ↦ expect .forInitializerEnd >>= fun _ ↦ Pure.pure (Stmt.expr e)) :=
    .bind .expr fun _ ↦ .bind (.parser _) fun _ ↦ .pure _
  refine .bind (.parser kind) fun k ↦ ?_
  cases k with
  | typeName type => exact .stmt
  | keyword w =>
    cases w with
    | svWord => exact .stmt
    | _ => exact hexpr
  | _ => exact hexpr

theorem Counterpart.forInitializer? : Counterpart C R C.forInitializer? R.forInitializer? :=
  .onKind (.pure _) (.map .forInitializer _)

theorem Counterpart.forComparison (name : Identifier) :
    Counterpart C R (C.forComparison name) (R.forComparison name) := by
  refine .choice (fun t ↦ ?_) (.parser _)
  cases Rules.loopComparison? t.kind with
  | none => exact .none
  | some op => exact .some (.map .additive _)

theorem Counterpart.forCondition? : Counterpart C R C.forCondition? R.forCondition? := by
  refine .choice (fun t ↦ ?_) (.parser _)
  split
  · exact .some (.forComparison _)
  · exact .none

theorem Counterpart.forIncrement? : Counterpart C R C.forIncrement? R.forIncrement? := by
  refine .lookAhead (fun ts ↦
    if (Parser.front ts).kind = .symbol .closeParen then some (none, ts)
    else (Rules.steppedName? ts).map fun (e, rest) ↦ (some e, rest)) (.map .expr some) ?_ ?_
  · intro d ts
    rw [Procedures.forIncrement?]
    split
    · rfl
    · cases Rules.steppedName? ts <;> rfl
  · intro ts
    rw [Rules.forIncrement?]
    split
    · rfl
    · cases Rules.steppedName? ts <;> rfl

theorem Counterpart.forLoop : Counterpart C R C.forLoop R.forLoop :=
  .bind (.parser _) fun _ ↦ .bind .forInitializer? fun _ ↦ .bind .forCondition? fun _ ↦
    .bind (.parser _) fun _ ↦ .bind .forIncrement? fun _ ↦ .bind (.parser _) fun _ ↦
      .bind .block fun _ ↦ .pure _

variable (C)

/-! ## `switch` -/

/-- The statements of a case, up to and with its `break;`. -/
def caseBody : Counting (List Stmt) := do
  let body ← manyUntil (fun k ↦ k = .keyword .breakWord ∨ k = .eof) C.stmt
  let _ ← expect .caseBreak
  let _ ← expect .breakEnd
  return body

/-- A case, behind the word `case`. -/
def caseClause : Counting Case := do
  let value ← C.expr
  let _ ← expect .caseColon
  let body ← C.caseBody
  return .mk value body

/-- The default case, behind the word `default`. -/
def defaultClause : Counting (List Stmt) := do
  let _ ← expect .defaultColon
  C.caseBody

/-- The default case, if there is one. -/
def defaultClause? : Counting (Option (List Stmt)) :=
  onKind (.keyword .defaultWord) (some <$> C.defaultClause) (pure none)

/-- A `switch`, behind that word. -/
def switch : Counting Stmt := do
  let subject ← C.condition .switchOpen
  let _ ← expect .casesOpen
  let cases ← manyAfter (.keyword .caseWord) C.caseClause []
  let default? ← C.defaultClause?
  let _ ← expect .casesClose
  return .switch subject cases default?

variable {C}

theorem Counterpart.caseBody : Counterpart C R C.caseBody R.caseBody :=
  .bind (.manyUntil .stmt) fun _ ↦ .bind (.parser _) fun _ ↦ .bind (.parser _) fun _ ↦ .pure _

theorem Counterpart.caseClause : Counterpart C R C.caseClause R.caseClause :=
  .bind .expr fun _ ↦ .bind (.parser _) fun _ ↦ .bind .caseBody fun _ ↦ .pure _

theorem Counterpart.defaultClause : Counterpart C R C.defaultClause R.defaultClause :=
  .bind (.parser _) fun _ ↦ .caseBody

theorem Counterpart.defaultClause? : Counterpart C R C.defaultClause? R.defaultClause? :=
  .onKind (.map .defaultClause _) (.pure _)

theorem Counterpart.switch : Counterpart C R C.switch R.switch :=
  .bind (.condition _) fun _ ↦ .bind (.parser _) fun _ ↦ .bind (.manyAfter .caseClause _) fun _ ↦
    .bind .defaultClause? fun _ ↦ .bind (.parser _) fun _ ↦ .pure _

variable (C)

/-! ## Any statement -/

/-- The procedure for a statement that starts with this token, if that decides its form. -/
def statementRule? (t : Token) : Option (Counting Stmt) :=
  match t.kind with
  | .typeName type => some (C.declaration (some type))
  | .keyword .svWord => some (C.declaration none)
  | .symbol .semicolon => some (pure .empty)
  | .keyword .functionWord => some C.function
  | .keyword .whileWord => some C.whileLoop
  | .keyword .ifWord => some C.ifElse
  | .keyword .forWord => some C.forLoop
  | .keyword .switchWord => some C.switch
  | .symbol .openBrace => some (.block <$> C.blockBody)
  | _ => none

/-- An expression as a statement, with or without a semicolon. -/
def exprStatement : Counting Stmt := do
  let e ← C.expr
  onKind (.symbol .semicolon) (pure (.expr e)) (pure (.expr e))

/-- A statement. -/
def statement : Counting Stmt := branch C.statementRule? C.exprStatement

/-- The statements of a program, as in `Rules.body`. -/
def body : Counting (List Stmt) := manyUntil (· = .eof) C.stmt

variable {C}

theorem counterpart_statementRule? (t : Token) :
    Option.Rel (Counterpart C R) (C.statementRule? t) (R.statementRule? t) := by
  rw [Procedures.statementRule?, Rules.statementRule?]
  cases t.kind with
  | typeName type => exact .some (.declaration _)
  | keyword w =>
    cases w with
    | svWord => exact .some (.declaration _)
    | functionWord => exact .some .function
    | whileWord => exact .some .whileLoop
    | ifWord => exact .some .ifElse
    | forWord => exact .some .forLoop
    | switchWord => exact .some .switch
    | _ => exact .none
  | symbol s =>
    cases s with
    | semicolon => exact .some (.pure _)
    | openBrace => exact .some (.map .blockBody _)
    | _ => exact .none
  | identifier | number | text | eof => exact .none

theorem Counterpart.exprStatement : Counterpart C R C.exprStatement R.exprStatement :=
  .bind .expr fun _ ↦ .onKind (.pure _) (.pure _)

theorem Counterpart.statement : Counterpart C R C.statement R.statement :=
  .choice counterpart_statementRule? .exprStatement

theorem Counterpart.body : Counterpart C R C.body R.body := .manyUntil .stmt

variable (C)

/-! ## Level by level -/

/-- The procedures as they are run one level of nesting further out: with the counter one higher. -/
def outer (limit : Nat) : Procedures where
  expr := nested limit C.comparison
  operand := nested limit C.primary
  stmt := nested limit C.statement
  elseIf := nested limit C.ifStatement

end Procedures

/-- The procedures, `fuel` calls of each other deep.  Any deeper call would not come to an end. -/
def procedures (limit : Nat) : Nat → Procedures
  | 0 => ⟨fun _ _ ↦ none, fun _ _ ↦ none, fun _ _ ↦ none, fun _ _ ↦ none⟩
  | fuel + 1 => (procedures limit fuel).outer limit

/-- A whole program, with the counter at zero to begin with. -/
def countingParse (limit : Nat) (ts : List Token) : Option (Counted Program) :=
  ((procedures limit (limit + 1)).body 0 ts).map (Counted.map fun (body, _) ↦ ⟨body⟩)

end SvLang
