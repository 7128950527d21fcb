import SvLang.Grammar.Expression

/-!
# The grammar of statements

The first token of a statement decides its form; what starts like no other statement is an
expression, with or without a semicolon behind it.  As for expressions, the rules are given the
rules for what lies one level of nesting deeper.
-/

set_option autoImplicit false

namespace SvLang

open SvLang.Parser

namespace Rules

variable (R : Rules)

/-! ## Blocks -/

/-- The statements of a block, behind its first brace, and the last brace. -/
def blockBody : Parser (List Stmt) := do
  let body ← manyUntil (fun k ↦ k = .symbol .closeBrace ∨ k = .eof) R.stmt R.stmt_shrinks
  let _ ← expect .blockClose
  return body

/-- Statements between braces. -/
def block : Parser (List Stmt) := do
  let _ ← expect .blockOpen
  R.blockBody

theorem keeps_blockBody : R.blockBody.Keeps :=
  (keeps_manyUntil _ _ _).bind fun _ ↦ (keeps_expect _).bind fun _ ↦ keeps_pure _

theorem keeps_block : R.block.Keeps := (keeps_expect _).bind fun _ ↦ R.keeps_blockBody

/-! ## Declarations -/

/-- The semicolon that ends the declaration of a name. -/
def declarationEnd (name : String) : Parser Unit :=
  onKind (.symbol .semicolon) (pure ()) (fail (.missingSemicolon name))

theorem keeps_declarationEnd (name : String) : (declarationEnd name).Keeps :=
  keeps_onKind (keeps_pure _) (shrinks_fail _).keeps

/-- What follows the name of a variable with an initializer, behind the `=`. -/
def initialized (name : String) (type? : Option TypeName) : Parser Stmt := do
  let initializer ← R.expr
  declarationEnd name
  return .variable ⟨name, none⟩ type? (some initializer)

/-- What follows the name of an array, behind the first bracket. -/
def arrayElements (name : String) (type? : Option TypeName) : Parser Stmt := do
  let _ ← expect .arrayBracket
  let _ ← expect .arrayAssign
  let _ ← expect .arrayOpen
  let elements ← listUntil (.symbol .closeBrace) R.expr R.keeps_expr
  let _ ← expect .arrayClose
  declarationEnd name
  return .array ⟨name, none⟩ type? elements

/-- What follows the name of a variable without an initializer. -/
def uninitialized (name : String) (type? : Option TypeName) : Parser Stmt := do
  declarationEnd name
  return .variable ⟨name, none⟩ type? none

/-- A declaration of a variable or an array, behind the word that starts it. -/
def declaration (type? : Option TypeName) : Parser Stmt := do
  let name ← expect .name
  onKind (.symbol .assign) (R.initialized name type?) <|
    onKind (.symbol .openBracket) (R.arrayElements name type?) (uninitialized name type?)

theorem keeps_initialized (name : String) (type? : Option TypeName) :
    (R.initialized name type?).Keeps :=
  R.keeps_expr.bind fun _ ↦ (keeps_declarationEnd _).bind fun _ ↦ keeps_pure _

theorem keeps_arrayElements (name : String) (type? : Option TypeName) :
    (R.arrayElements name type?).Keeps :=
  (keeps_expect _).bind fun _ ↦ (keeps_expect _).bind fun _ ↦ (keeps_expect _).bind fun _ ↦
    (keeps_listUntil _ _ _).bind fun _ ↦ (keeps_expect _).bind fun _ ↦
      (keeps_declarationEnd _).bind fun _ ↦ keeps_pure _

theorem keeps_uninitialized (name : String) (type? : Option TypeName) :
    (uninitialized name type?).Keeps :=
  (keeps_declarationEnd _).bind fun _ ↦ keeps_pure _

theorem keeps_declaration (type? : Option TypeName) : (R.declaration type?).Keeps :=
  (keeps_expect _).bind fun _ ↦ keeps_onKind (R.keeps_initialized _ _)
    (keeps_onKind (R.keeps_arrayElements _ _) (keeps_uninitialized _ _))

/-! ## Functions -/

/-- Refuses the token at the front because it belongs to no parameter. -/
def malformedParameter : Parser Identifier := do fail (.malformedParameter (← kind))

/-- The name of a parameter, behind its type. -/
def parameterName (type : TypeName) : Parser Identifier :=
  branch (fun t ↦ if t.kind = .identifier then some (pure ⟨t.text, some type⟩) else none)
    malformedParameter

/-- A parameter: a type and a name. -/
def parameter : Parser Identifier :=
  branch (fun t ↦ t.kind.typeName?.map parameterName) malformedParameter

theorem shrinks_malformedParameter : malformedParameter.Shrinks :=
  keeps_kind.bind_shrinks fun _ ↦ shrinks_fail _

theorem shrinks_parameterName (type : TypeName) : (parameterName type).Shrinks := by
  refine shrinks_branch (fun t rule h ↦ ?_) shrinks_malformedParameter
  split at h
  · cases h
    exact keeps_pure _
  · cases h

theorem shrinks_parameter : parameter.Shrinks := by
  refine shrinks_branch (fun t rule h ↦ ?_) shrinks_malformedParameter
  obtain ⟨type, -, rfl⟩ := Option.map_eq_some_iff.1 h
  exact (shrinks_parameterName type).keeps

/-- The declaration of a function, behind the word `function`. -/
def function : Parser Stmt := do
  let name ← expect .name
  let _ ← expect .parametersOpen
  let parameters ← listUntil (.symbol .closeParen) parameter shrinks_parameter.keeps
  let _ ← expect .parametersClose
  let body ← R.block
  return .function ⟨name, none⟩ parameters body

theorem keeps_function : R.function.Keeps :=
  (keeps_expect _).bind fun _ ↦ (keeps_expect _).bind fun _ ↦ (keeps_listUntil _ _ _).bind fun _ ↦
    (keeps_expect _).bind fun _ ↦ R.keeps_block.bind fun _ ↦ keeps_pure _

/-! ## Conditions and loops -/

/-- An expression in parentheses, the first of which has to stand at `place`. -/
def condition (place : Landmark) : Parser Expr := do
  let _ ← expect place
  let e ← R.expr
  let _ ← expect .conditionClose
  return e

theorem keeps_condition (place : Landmark) : (R.condition place).Keeps :=
  (keeps_expect _).bind fun _ ↦ R.keeps_expr.bind fun _ ↦ (keeps_expect _).bind fun _ ↦
    keeps_pure _

/-- A `while` loop, behind that word. -/
def whileLoop : Parser Stmt := do
  let e ← R.condition .whileOpen
  let body ← R.block
  return .whileLoop e body

theorem keeps_whileLoop : R.whileLoop.Keeps :=
  (R.keeps_condition _).bind fun _ ↦ R.keeps_block.bind fun _ ↦ keeps_pure _

/-- What follows the word `else`: a block, or an `if` that is a block by itself. -/
def elseBranch : Parser (List Stmt) := do
  if (← kind) = .keyword .ifWord then
    let nested ← R.elseIf
    return [nested]
  else R.block

/-- The `else` branch of an `if`, if it has one. -/
def elseBranch? : Parser (Option (List Stmt)) :=
  onKind (.keyword .elseWord) (some <$> R.elseBranch) (pure none)

/-- An `if`, behind that word. -/
def ifElse : Parser Stmt := do
  let e ← R.condition .ifOpen
  let thenBody ← R.block
  let elseBody? ← R.elseBranch?
  return .ifElse e thenBody elseBody?

/-- An `if` with that word, which has to stand at the front. -/
def ifStatement : Parser Stmt := onKind (.keyword .ifWord) R.ifElse unexpected

theorem keeps_elseBranch : R.elseBranch.Keeps := by
  refine keeps_kind.bind fun k ↦ ?_
  split
  · exact R.elseIf_shrinks.keeps.bind fun _ ↦ keeps_pure _
  · exact R.keeps_block

theorem keeps_elseBranch? : R.elseBranch?.Keeps :=
  keeps_onKind (R.keeps_elseBranch.map _) (keeps_pure _)

theorem keeps_ifElse : R.ifElse.Keeps :=
  (R.keeps_condition _).bind fun _ ↦ R.keeps_block.bind fun _ ↦ R.keeps_elseBranch?.bind fun _ ↦
    keeps_pure _

theorem shrinks_ifStatement : R.ifStatement.Shrinks :=
  shrinks_onKind R.keeps_ifElse shrinks_unexpected

/-! ## `for` loops -/

/-- A loop initializer that is there: a declaration, which brings its own semicolon, or an
expression and a semicolon. -/
def forInitializer : Parser Stmt := do
  match ← kind with
  | .keyword .svWord | .typeName _ => R.stmt
  | _ =>
    let e ← R.expr
    let _ ← expect .forInitializerEnd
    return .expr e

/-- The first part of a loop header with its semicolon. -/
def forInitializer? : Parser (Option Stmt) :=
  onKind (.symbol .semicolon) (pure none) (some <$> R.forInitializer)

/-- Refuses the token at the front because it belongs to no condition of a loop header. -/
def malformedCondition : Parser (Option Expr) := do fail (.malformedForCondition (← kind))

/-- A loop condition, or none, that ends at the semicolon at the front. -/
def conditionEnd (condition? : Option Expr) : Parser (Option Expr) := do
  if (← kind) = .symbol .semicolon then return condition? else malformedCondition

/-- The operators that a loop condition may compare its name by. -/
def loopComparison? : TokenKind → Option ComparisonOp
  | .symbol .less => some .less
  | .symbol .greater => some .greater
  | _ => none

/-- What a loop condition compares its name with, behind the operator: an expression of the
additive tier. -/
def forBound (name : Identifier) (op : ComparisonOp) : Parser (Option Expr) :=
  (fun bound ↦ some (.binary (.identifier name) (.comparison op) bound)) <$> R.additive

/-- What follows the name that a loop condition starts with: a comparison or nothing. -/
def forComparison (name : Identifier) : Parser (Option Expr) :=
  branch (fun t ↦ (loopComparison? t.kind).map (R.forBound name))
    (conditionEnd (some (.identifier name)))

/-- The second part of a loop header, without its semicolon. -/
def forCondition? : Parser (Option Expr) :=
  branch (fun t ↦ if t.kind = .identifier then some (R.forComparison ⟨t.text, none⟩) else none)
    (conditionEnd none)

/-- The operator that steps a variable up or down. -/
def stepOp? : TokenKind → Option StepOp
  | .symbol .plusPlus => some .increment
  | .symbol .minusMinus => some .decrement
  | _ => none

/-- A name with a step operator behind it, at the front, and the tokens that follow. -/
def steppedName? : List Token → Option (Expr × List Token)
  | t :: u :: ts =>
    if t.kind = .identifier then
      (stepOp? u.kind).map fun op ↦ (.unary op (some (.identifier ⟨t.text, none⟩)), ts)
    else none
  | _ => none

/-- The third part of a loop header.  A name with a step operator behind it is the whole part. -/
def forIncrement? : Parser (Option Expr) := fun ts ↦
  if (front ts).kind = .symbol .closeParen then .ok (none, ts)
  else
    match steppedName? ts with
    | some (e, rest) => .ok (some e, rest)
    | none => (some <$> R.expr) ts

/-- A `for` loop, behind that word. -/
def forLoop : Parser Stmt := do
  let _ ← expect .forOpen
  let initializer? ← R.forInitializer?
  let condition? ← R.forCondition?
  let _ ← expect .forConditionEnd
  let increment? ← R.forIncrement?
  let _ ← expect .forClose
  let body ← R.block
  return .forLoop initializer? condition? increment? body

theorem keeps_forInitializer : R.forInitializer.Keeps := by
  refine keeps_kind.bind fun k ↦ ?_
  split
  · exact R.keeps_stmt
  · exact R.keeps_stmt
  · exact R.keeps_expr.bind fun _ ↦ (keeps_expect _).bind fun _ ↦ keeps_pure _

theorem keeps_forInitializer? : R.forInitializer?.Keeps :=
  keeps_onKind (keeps_pure _) (R.keeps_forInitializer.map _)

theorem keeps_malformedCondition : malformedCondition.Keeps :=
  keeps_kind.bind fun _ ↦ (shrinks_fail _).keeps

theorem keeps_conditionEnd (condition? : Option Expr) : (conditionEnd condition?).Keeps := by
  refine keeps_kind.bind fun k ↦ ?_
  split
  · exact keeps_pure _
  · exact keeps_malformedCondition

theorem keeps_forComparison (name : Identifier) : (R.forComparison name).Keeps := by
  refine keeps_branch (fun t rule h ↦ ?_) (keeps_conditionEnd _)
  obtain ⟨op, -, rfl⟩ := Option.map_eq_some_iff.1 h
  exact R.shrinks_additive.keeps.map _

theorem keeps_forCondition? : R.forCondition?.Keeps := by
  refine keeps_branch (fun t rule h ↦ ?_) (keeps_conditionEnd _)
  split at h
  · cases h
    exact R.keeps_forComparison _
  · cases h

theorem length_lt_of_steppedName? {ts rest : List Token} {e : Expr}
    (h : steppedName? ts = some (e, rest)) : rest.length < ts.length := by
  rw [steppedName?.eq_def] at h
  split at h
  · split at h
    · obtain ⟨op, -, h⟩ := Option.map_eq_some_iff.1 h
      cases h
      simp only [List.length_cons]
      omega
    · cases h
  · cases h

theorem keeps_forIncrement? : R.forIncrement?.Keeps := by
  intro ts a rest h
  rw [forIncrement?] at h
  split at h
  · cases h
    exact Nat.le_refl _
  · split at h
    · cases h
      exact Nat.le_of_lt (length_lt_of_steppedName? (by assumption))
    · exact R.keeps_expr.map some _ _ _ h

theorem keeps_forLoop : R.forLoop.Keeps :=
  (keeps_expect _).bind fun _ ↦ R.keeps_forInitializer?.bind fun _ ↦
    R.keeps_forCondition?.bind fun _ ↦ (keeps_expect _).bind fun _ ↦
      R.keeps_forIncrement?.bind fun _ ↦ (keeps_expect _).bind fun _ ↦
        R.keeps_block.bind fun _ ↦ keeps_pure _

/-! ## `switch` -/

/-- The statements of a case, up to and with its `break;`. -/
def caseBody : Parser (List Stmt) := do
  let body ← manyUntil (fun k ↦ k = .keyword .breakWord ∨ k = .eof) R.stmt R.stmt_shrinks
  let _ ← expect .caseBreak
  let _ ← expect .breakEnd
  return body

/-- A case, behind the word `case`. -/
def caseClause : Parser Case := do
  let value ← R.expr
  let _ ← expect .caseColon
  let body ← R.caseBody
  return .mk value body

/-- The default case, behind the word `default`. -/
def defaultClause : Parser (List Stmt) := do
  let _ ← expect .defaultColon
  R.caseBody

/-- The default case, if there is one. -/
def defaultClause? : Parser (Option (List Stmt)) :=
  onKind (.keyword .defaultWord) (some <$> R.defaultClause) (pure none)

theorem keeps_caseBody : R.caseBody.Keeps :=
  (keeps_manyUntil _ _ _).bind fun _ ↦ (keeps_expect _).bind fun _ ↦ (keeps_expect _).bind fun _ ↦
    keeps_pure _

theorem keeps_caseClause : R.caseClause.Keeps :=
  R.keeps_expr.bind fun _ ↦ (keeps_expect _).bind fun _ ↦ R.keeps_caseBody.bind fun _ ↦
    keeps_pure _

theorem keeps_defaultClause : R.defaultClause.Keeps :=
  (keeps_expect _).bind fun _ ↦ R.keeps_caseBody

theorem keeps_defaultClause? : R.defaultClause?.Keeps :=
  keeps_onKind (R.keeps_defaultClause.map _) (keeps_pure _)

/-- A `switch`, behind that word. -/
def switch : Parser Stmt := do
  let subject ← R.condition .switchOpen
  let _ ← expect .casesOpen
  let cases ← manyAfter (.keyword .caseWord) R.caseClause R.keeps_caseClause []
  let default? ← R.defaultClause?
  let _ ← expect .casesClose
  return .switch subject cases default?

theorem keeps_switch : R.switch.Keeps :=
  (R.keeps_condition _).bind fun _ ↦ (keeps_expect _).bind fun _ ↦
    (keeps_manyAfter _ _ _ _).bind fun _ ↦ R.keeps_defaultClause?.bind fun _ ↦
      (keeps_expect _).bind fun _ ↦ keeps_pure _

/-! ## Any statement -/

/-- The rule for a statement that starts with this token, if that decides its form. -/
def statementRule? (t : Token) : Option (Parser Stmt) :=
  match t.kind with
  | .typeName type => some (R.declaration (some type))
  | .keyword .svWord => some (R.declaration none)
  | .symbol .semicolon => some (pure .empty)
  | .keyword .functionWord => some R.function
  | .keyword .whileWord => some R.whileLoop
  | .keyword .ifWord => some R.ifElse
  | .keyword .forWord => some R.forLoop
  | .keyword .switchWord => some R.switch
  | .symbol .openBrace => some (.block <$> R.blockBody)
  | _ => none

/-- An expression as a statement, with or without a semicolon. -/
def exprStatement : Parser Stmt := do
  let e ← R.expr
  onKind (.symbol .semicolon) (pure (.expr e)) (pure (.expr e))

/-- A statement. -/
def statement : Parser Stmt := branch R.statementRule? R.exprStatement

theorem shrinks_exprStatement : R.exprStatement.Shrinks :=
  R.expr_shrinks.bind fun _ ↦ keeps_onKind (keeps_pure _) (keeps_pure _)

theorem shrinks_statement : R.statement.Shrinks := by
  refine shrinks_branch (fun t rule h ↦ ?_) R.shrinks_exprStatement
  rw [statementRule?] at h
  split at h <;> cases h
  · exact R.keeps_declaration _
  · exact R.keeps_declaration _
  · exact keeps_pure _
  · exact R.keeps_function
  · exact R.keeps_whileLoop
  · exact R.keeps_ifElse
  · exact R.keeps_forLoop
  · exact R.keeps_switch
  · exact R.keeps_blockBody.map _

end Rules

end SvLang
