import SvLang.Outline
import SvLang.Program

/-!
# Outlines of tokens and programs

The names of tokens, expressions and statements and of their parts, as dumps show them.
-/

set_option autoImplicit false

namespace SvLang

/-! ## Tokens -/

/-- The outline of a range of bytes. -/
def Span.outline (s : Span) : Outline :=
  .record "Span" [("start", .natural s.start.toNat), ("end", .natural s.stop.toNat)]

/-- The outline of a token. -/
def Token.outline (t : Token) : Outline :=
  .record "Token" [("kind", .word t.kind.name), ("text", .text t.text), ("span", t.span.outline)]

/-! ## Expressions -/

/-- The outline of an optional type. -/
def TypeName.outline? (type? : Option TypeName) : Outline :=
  .ofOption? (type?.map fun t ↦ .word t.name)

/-- The outline of a name. -/
def Identifier.outline (id : Identifier) : Outline :=
  .record "Identifier"
    [("name", .text id.name), ("declared_type", TypeName.outline? id.declaredType?)]

namespace Expr

mutual

/-- The outline of an expression. -/
def outline : Expr → Outline
  | binary left op right =>
    .taggedRecord "Binary" [("left", left.outline), ("op", .word op.name), ("right", right.outline)]
  | unary op operand? =>
    .taggedRecord "Unary" [("op", .word op.name), ("operand", outline? operand?)]
  | identifier id => .tagged "Identifier" id.outline
  | number .numeric value => .tagged "NumericLiteral" (.float value)
  | number .float value => .tagged "FloatLiteral" (.float value)
  | number .double value => .tagged "DoubleLiteral" (.float value)
  | text .double content => .tagged "StringLiteral" (.text content)
  | text .single content => .tagged "CharLiteral" (.text content)
  | call callee arguments =>
    .tagged "FunctionCall" (.record "FunctionCall"
      [("identifier", callee.outline), ("arguments", .list (outlines [] arguments))])
  | ret value? => .tagged "Return" (outline? value?)

/-- The outline of an optional expression. -/
def outline? : Option Expr → Outline
  | none => .absent
  | some e => .present e.outline

/-- The outlines of a list of expressions, behind those that are `done`, latest first. -/
def outlines (done : List Outline) : List Expr → List Outline
  | [] => done.reverse
  | e :: es => outlines (e.outline :: done) es

end

end Expr

/-! ## Statements -/

/-- The outline of a parameter. -/
def Identifier.parameterOutline (id : Identifier) : Outline :=
  .record "Parameter" [("identifier", id.outline)]

mutual

/-- The outline of a statement. -/
def Stmt.outline : Stmt → Outline
  | .variable id type? initializer? =>
    .tagged "VariableDeclaration" (.record "VarDecl"
      [("identifier", id.outline), ("declared_type", TypeName.outline? type?),
        ("initializer", Expr.outline? initializer?)])
  | .array id type? elements =>
    .tagged "ArrayDeclaration" (.record "ArrayDecl"
      [("identifier", id.outline), ("declared_type", TypeName.outline? type?),
        ("elements", .list (Expr.outlines [] elements))])
  | .function id parameters body =>
    .tagged "FunctionDeclaration" (.record "FnDecl"
      [("identifier", id.outline),
        ("parameters", .list (parameters.map Identifier.parameterOutline)),
        ("body", Stmt.blockOutline body)])
  | .whileLoop condition body =>
    .tagged "While" (.record "WhileStmt"
      [("condition", condition.outline), ("body", Stmt.blockOutline body)])
  | .ifElse condition thenBody elseBody? =>
    .tagged "If" (.record "IfStmt"
      [("condition", condition.outline), ("then_branch", Stmt.blockOutline thenBody),
        ("else_branch", Stmt.blockOutline? elseBody?)])
  | .forLoop initializer? condition? increment? body =>
    .tagged "For" (.record "ForStmt"
      [("initialization", Stmt.outline? initializer?), ("condition", Expr.outline? condition?),
        ("increment", Expr.outline? increment?), ("body", Stmt.blockOutline body)])
  | .switch subject cases default? =>
    .tagged "Switch" (.record "SwitchStmt"
      [("expression", subject.outline), ("cases", .list (Case.outlines [] cases)),
        ("default", Stmt.listOutline? default?)])
  | .block body => .tagged "Block" (Stmt.blockOutline body)
  | .empty => .word "Semicolon"
  | .expr e => .tagged "Expr" e.outline

/-- The outline of an optional statement. -/
def Stmt.outline? : Option Stmt → Outline
  | none => .absent
  | some s => .present s.outline

/-- The outlines of a list of statements, behind those that are `done`, latest first. -/
def Stmt.outlines (done : List Outline) : List Stmt → List Outline
  | [] => done.reverse
  | s :: ss => Stmt.outlines (s.outline :: done) ss

/-- The outline of a block. -/
def Stmt.blockOutline (body : List Stmt) : Outline :=
  .record "Block" [("statements", .list (Stmt.outlines [] body))]

/-- The outline of an optional block. -/
def Stmt.blockOutline? : Option (List Stmt) → Outline
  | none => .absent
  | some body => .present (Stmt.blockOutline body)

/-- The outline of an optional list of statements. -/
def Stmt.listOutline? : Option (List Stmt) → Outline
  | none => .absent
  | some body => .present (.list (Stmt.outlines [] body))

/-- The outline of a case. -/
def Case.outline : Case → Outline
  | .mk value body =>
    .record "CaseStmt" [("value", value.outline), ("body", .list (Stmt.outlines [] body))]

/-- The outlines of a list of cases, behind those that are `done`, latest first. -/
def Case.outlines (done : List Outline) : List Case → List Outline
  | [] => done.reverse
  | c :: cs => Case.outlines (c.outline :: done) cs

end

/-- The outline of a program. -/
def Program.outline (p : Program) : Outline :=
  .record "Program" [("body", .list (Stmt.outlines [] p.body))]

end SvLang
