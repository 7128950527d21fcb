import SvLang.Grammar

/-!
# Concrete syntax trees

The grammar of the language as a type of derivation trees.  A tree keeps everything that is written
— parentheses, separators, keywords, the semicolon behind an expression or its absence — so it
knows its tokens; and it can be stripped down to the program it means.  Nothing here refers to the
parser.

## What is here

* `Terminal`: what the grammar sees of a token.
* `ExprTree` and `StmtTree`: the trees of expressions and of statements.  Both are families over the
  forms of the grammar (`ExprForm`, `StmtForm`), so that one induction reaches every rule.
* For every tree its `terminals`, its `abstract` meaning, the number of `levels` it nests, and
  `Settled`, which says that no `return` in it is followed by a token it would swallow.

Sequences are built from the left, as the operators group.
-/

set_option autoImplicit false

namespace SvLang

/-! ## Terminals -/

/-- Whether the text of a token of this kind means anything. -/
def TokenKind.hasText : TokenKind → Bool
  | identifier | number _ | text _ => true
  | _ => false

/-- What the grammar sees of a token: its kind, and its text if that means anything. -/
structure Terminal where
  kind : TokenKind
  text : String
  deriving DecidableEq, Repr

/-- The terminal that a token is. -/
def Token.terminal (t : Token) : Terminal := ⟨t.kind, if t.kind.hasText then t.text else ""⟩

namespace Terminal

/-- A symbol as a terminal. -/
def ofSymbol (s : Symbol) : Terminal := ⟨.symbol s, ""⟩

/-- A keyword as a terminal. -/
def ofKeyword (k : Keyword) : Terminal := ⟨.keyword k, ""⟩

/-- A name as a terminal. -/
def ofName (x : String) : Terminal := ⟨.identifier, x⟩

/-- The word that starts a declaration: its type, or `sv`. -/
def ofDeclaredType : Option TypeName → Terminal
  | some type => ⟨.typeName type, ""⟩
  | none => ofKeyword .svWord

end Terminal

/-! ## Expressions -/

/-- How tightly an expression holds together, from the tightest on. -/
inductive Tier where
  | primary | multiplicative | additive | comparison
  deriving DecidableEq, Repr

/-- The next looser tier. -/
def Tier.above? : Tier → Option Tier
  | primary => some multiplicative
  | multiplicative => some additive
  | additive => some comparison
  | comparison => none

/-- The tier on which an operator joins two operands.  A step operator joins none. -/
def BinaryOp.tier? : BinaryOp → Option Tier
  | arithmetic .multiply | arithmetic .divide | arithmetic .remainder => some .multiplicative
  | assignment .multiply | assignment .divide => some .multiplicative
  | arithmetic .add | arithmetic .subtract => some .additive
  | assignment .add | assignment .subtract => some .additive
  | comparison _ => some .comparison
  | step _ => none

/-- The forms of the grammar of expressions. -/
inductive ExprForm where
  | tier (τ : Tier)
  /-- What a step operator in front of it steps. -/
  | operand
  /-- An expression where the grammar asks for one. -/
  | whole
  /-- One or more whole expressions with commas between them. -/
  | items
  /-- Items or nothing. -/
  | arguments

/-- What the trees of a form mean. -/
abbrev ExprForm.Abstract : ExprForm → Type
  | tier _ | operand | whole => Expr
  | items | arguments => List Expr

/-- The trees of expressions. -/
inductive ExprTree : ExprForm → Type where
  | name (x : String) : ExprTree (.tier .primary)
  | call (callee : String) (arguments : ExprTree .arguments) : ExprTree (.tier .primary)
  /-- A number: a text together with the value that it reads as. -/
  | number (width : Width) (text : String) (value : Float)
      (reads : Decimal.readFloat? text.toList = some value) : ExprTree (.tier .primary)
  | quoted (quote : Quote) (content : String) : ExprTree (.tier .primary)
  | stepBefore (op : StepOp) (e : ExprTree .operand) : ExprTree (.tier .primary)
  | group (e : ExprTree .whole) : ExprTree (.tier .primary)
  | ret (value : ExprTree .whole) : ExprTree (.tier .primary)
  | retNothing : ExprTree (.tier .primary)
  /-- An expression of a tier counts as one of the next looser tier. -/
  | lift {σ τ : Tier} (h : σ.above? = some τ) (e : ExprTree (.tier σ)) : ExprTree (.tier τ)
  | binary {σ τ : Tier} (h : σ.above? = some τ) (left : ExprTree (.tier τ)) (op : BinaryOp)
      (hop : op.tier? = some τ) (right : ExprTree (.tier σ)) : ExprTree (.tier τ)
  | stepBehind (left : ExprTree (.tier .additive)) (op : StepOp) : ExprTree (.tier .additive)
  | operand (e : ExprTree (.tier .primary)) : ExprTree .operand
  | whole (e : ExprTree (.tier .comparison)) : ExprTree .whole
  | one (e : ExprTree .whole) : ExprTree .items
  | more (es : ExprTree .items) (e : ExprTree .whole) : ExprTree .items
  | noArguments : ExprTree .arguments
  | arguments (es : ExprTree .items) : ExprTree .arguments

/-- Whether a token of this kind stands between two operands or behind one. -/
def TokenKind.isOperator (k : TokenKind) : Bool := BinaryOp.all.any (k = .symbol ·.symbol)

namespace ExprTree

/-- What is written. -/
def terminals : {c : ExprForm} → ExprTree c → List Terminal
  | _, name x => [.ofName x]
  | _, call f es =>
    .ofName f :: .ofSymbol .openParen :: (es.terminals ++ [.ofSymbol .closeParen])
  | _, number w text _ _ => [⟨.number w, text⟩]
  | _, quoted q content => [⟨.text q, content⟩]
  | _, stepBefore op e => .ofSymbol op.symbol :: e.terminals
  | _, group e => .ofSymbol .openParen :: (e.terminals ++ [.ofSymbol .closeParen])
  | _, ret e => .ofKeyword .returnWord :: e.terminals
  | _, retNothing => [.ofKeyword .returnWord]
  | _, lift _ e => e.terminals
  | _, binary _ left op _ right => left.terminals ++ .ofSymbol op.symbol :: right.terminals
  | _, stepBehind left op => left.terminals ++ [.ofSymbol op.symbol]
  | _, operand e => e.terminals
  | _, whole e => e.terminals
  | _, one e => e.terminals
  | _, more es e => es.terminals ++ .ofSymbol .comma :: e.terminals
  | _, noArguments => []
  | _, arguments es => es.terminals

/-- What is meant. -/
def abstract : {c : ExprForm} → ExprTree c → c.Abstract
  | _, name x => Expr.identifier ⟨x, none⟩
  | _, call f es => Expr.call ⟨f, none⟩ es.abstract
  | _, number w _ value _ => Expr.number w value
  | _, quoted q content => Expr.text q content
  | _, stepBefore op e => Expr.unary op (some e.abstract)
  | _, group e => e.abstract
  | _, ret e => Expr.ret (some e.abstract)
  | _, retNothing => Expr.ret none
  | _, lift _ e => e.abstract
  | _, binary _ left op _ right => Expr.binary left.abstract op right.abstract
  | _, stepBehind left op => Expr.binary left.abstract (.step op) (.unary op none)
  | _, operand e => e.abstract
  | _, whole e => e.abstract
  | _, one e => [e.abstract]
  | _, more es e => es.abstract ++ [e.abstract]
  | _, noArguments => []
  | _, arguments es => es.abstract

/-- How many levels deep the tree nests.  A level is counted for each whole expression and for each
operand of a step operator in front of it. -/
def levels : {c : ExprForm} → ExprTree c → Nat
  | _, name _ | _, number .. | _, quoted .. | _, retNothing | _, noArguments => 0
  | _, operand e => e.levels + 1
  | _, whole e => e.levels + 1
  | _, call _ es => es.levels
  | _, stepBefore _ e => e.levels
  | _, group e => e.levels
  | _, ret e => e.levels
  | _, lift _ e => e.levels
  | _, binary _ left _ _ right => max left.levels right.levels
  | _, stepBehind left _ => left.levels
  | _, one e => e.levels
  | _, more es e => max es.levels e.levels
  | _, arguments es => es.levels

/-- Every `return` of the tree keeps its distance, if `k` is the kind of the token behind the tree:
one with a value is not directly followed by an operator, and one without is directly followed by a
semicolon. -/
def Settled : {c : ExprForm} → ExprTree c → TokenKind → Prop
  | _, name _, _ | _, number .., _ | _, quoted .., _ | _, noArguments, _ => True
  | _, call _ es, _ => es.Settled (.symbol .closeParen)
  | _, stepBefore _ e, k => e.Settled k
  | _, group e, _ => e.Settled (.symbol .closeParen)
  | _, ret e, k => e.Settled k ∧ ¬ k.isOperator
  | _, retNothing, k => k = .symbol .semicolon
  | _, lift _ e, k => e.Settled k
  | _, binary _ left op _ right, k => left.Settled (.symbol op.symbol) ∧ right.Settled k
  | _, stepBehind left op, _ => left.Settled (.symbol op.symbol)
  | _, operand e, k => e.Settled k
  | _, whole e, k => e.Settled k
  | _, one e, k => e.Settled k
  | _, more es e, k => es.Settled (.symbol .comma) ∧ e.Settled k
  | _, arguments es, k => es.Settled k

end ExprTree

/-! ## Declarations and the parts of a loop header -/

/-- Declarations, with the type word if there is one. -/
inductive DeclarationTree where
  | initialized (type? : Option TypeName) (x : String) (e : ExprTree .whole)
  | uninitialized (type? : Option TypeName) (x : String)
  | array (type? : Option TypeName) (x : String) (elements : ExprTree .arguments)

namespace DeclarationTree

/-- What is written. -/
def terminals : DeclarationTree → List Terminal
  | initialized type? x e =>
    .ofDeclaredType type? :: .ofName x :: .ofSymbol .assign ::
      (e.terminals ++ [.ofSymbol .semicolon])
  | uninitialized type? x => [.ofDeclaredType type?, .ofName x, .ofSymbol .semicolon]
  | array type? x es =>
    .ofDeclaredType type? :: .ofName x :: .ofSymbol .openBracket :: .ofSymbol .closeBracket ::
      .ofSymbol .assign :: .ofSymbol .openBrace ::
        (es.terminals ++ [.ofSymbol .closeBrace, .ofSymbol .semicolon])

/-- What is meant. -/
def abstract : DeclarationTree → Stmt
  | initialized type? x e => .variable ⟨x, none⟩ type? (some e.abstract)
  | uninitialized type? x => .variable ⟨x, none⟩ type? none
  | array type? x es => .array ⟨x, none⟩ type? es.abstract

/-- How many levels deep the declaration nests. -/
def levels : DeclarationTree → Nat
  | initialized _ _ e => e.levels
  | uninitialized .. => 0
  | array _ _ es => es.levels

/-- Every `return` of the declaration keeps its distance. -/
def Settled : DeclarationTree → Prop
  | initialized _ _ e => e.Settled (.symbol .semicolon)
  | uninitialized .. => True
  | array _ _ es => es.Settled (.symbol .closeBrace)

end DeclarationTree

/-- A parameter of a function: its type and its name. -/
structure ParameterTree where
  type : TypeName
  name : String

namespace ParameterTree

/-- What is written. -/
def terminals (p : ParameterTree) : List Terminal := [⟨.typeName p.type, ""⟩, .ofName p.name]

/-- What is meant: the name, which carries its type. -/
def abstract (p : ParameterTree) : Identifier := ⟨p.name, some p.type⟩

/-- What is written for parameters that follow others, each behind a comma. -/
def tailTerminals : List ParameterTree → List Terminal
  | [] => []
  | p :: ps => .ofSymbol .comma :: (p.terminals ++ tailTerminals ps)

/-- What is written for a list of parameters. -/
def listTerminals : List ParameterTree → List Terminal
  | [] => []
  | p :: ps => p.terminals ++ tailTerminals ps

end ParameterTree

/-- The first part of a loop header, with its semicolon. -/
inductive ForStartTree where
  | nothing
  /-- A declaration, which brings its own semicolon. -/
  | declaration (d : DeclarationTree)
  | expr (e : ExprTree .whole)

namespace ForStartTree

/-- What is written. -/
def terminals : ForStartTree → List Terminal
  | nothing => [.ofSymbol .semicolon]
  | declaration d => d.terminals
  | expr e => e.terminals ++ [.ofSymbol .semicolon]

/-- What is meant. -/
def abstract : ForStartTree → Option Stmt
  | nothing => none
  | declaration d => some d.abstract
  | expr e => some (.expr e.abstract)

/-- How many levels deep the part nests.  A declaration is a statement of its own here. -/
def levels : ForStartTree → Nat
  | nothing => 0
  | declaration d => d.levels + 1
  | expr e => e.levels

/-- Every `return` of the part keeps its distance. -/
def Settled : ForStartTree → Prop
  | nothing => True
  | declaration d => d.Settled
  | expr e => e.Settled (.symbol .semicolon)

end ForStartTree

/-- The second part of a loop header, without its semicolon. -/
inductive ForConditionTree where
  | nothing
  | name (x : String)
  /-- A name that is less than a bound, or greater. -/
  | compare (x : String) (op : ComparisonOp) (h : op = .less ∨ op = .greater)
      (bound : ExprTree (.tier .additive))

namespace ForConditionTree

/-- What is written. -/
def terminals : ForConditionTree → List Terminal
  | nothing => []
  | name x => [.ofName x]
  | compare x op _ bound =>
    .ofName x :: .ofSymbol (BinaryOp.comparison op).symbol :: bound.terminals

/-- What is meant. -/
def abstract : ForConditionTree → Option Expr
  | nothing => none
  | name x => some (.identifier ⟨x, none⟩)
  | compare x op _ bound => some (.binary (.identifier ⟨x, none⟩) (.comparison op) bound.abstract)

/-- How many levels deep the part nests. -/
def levels : ForConditionTree → Nat
  | nothing | name _ => 0
  | compare _ _ _ bound => bound.levels

/-- Every `return` of the part keeps its distance. -/
def Settled : ForConditionTree → Prop
  | nothing | name _ => True
  | compare _ _ _ bound => bound.Settled (.symbol .semicolon)

end ForConditionTree

/-- The third part of a loop header. -/
inductive ForIncrementTree where
  | nothing
  | step (x : String) (op : StepOp)
  | expr (e : ExprTree .whole)

/-- Whether a text starts with a name and a step operator behind it. -/
def startsWithStep : List Terminal → Bool
  | x :: op :: _ =>
    x.kind = .identifier && (op.kind = .symbol .plusPlus || op.kind = .symbol .minusMinus)
  | _ => false

namespace ForIncrementTree

/-- What is written. -/
def terminals : ForIncrementTree → List Terminal
  | nothing => []
  | step x op => [.ofName x, .ofSymbol op.symbol]
  | expr e => e.terminals

/-- What is meant. -/
def abstract : ForIncrementTree → Option Expr
  | nothing => none
  | step x op => some (.unary op (some (.identifier ⟨x, none⟩)))
  | expr e => some e.abstract

/-- How many levels deep the part nests. -/
def levels : ForIncrementTree → Nat
  | nothing | step .. => 0
  | expr e => e.levels

/-- Every `return` of the part keeps its distance, and the part starts with a step of a name only
if it is nothing else. -/
def Settled : ForIncrementTree → Prop
  | nothing | step .. => True
  | expr e => e.Settled (.symbol .closeParen) ∧ ¬ startsWithStep e.terminals

end ForIncrementTree

/-! ## Statements -/

/-- The forms of the grammar of statements. -/
inductive StmtForm where
  | statement
  /-- A statement where the grammar asks for one. -/
  | nested
  /-- Statements one after another. -/
  | body
  | block
  /-- An `if` with its branches. -/
  | conditional
  /-- An `if` that follows an `else`. -/
  | elseIf
  /-- What may follow the first branch of an `if`. -/
  | elsePart
  /-- The statements of a case, up to and with its `break;`. -/
  | caseBody
  | cases
  /-- The default case, or nothing. -/
  | defaultPart

/-- What the trees of a form mean. -/
abbrev StmtForm.Abstract : StmtForm → Type
  | statement | nested | conditional | elseIf => Stmt
  | body | block | caseBody => List Stmt
  | elsePart | defaultPart => Option (List Stmt)
  | cases => List Case

/-- The trees of statements. -/
inductive StmtTree : StmtForm → Type where
  | declaration (d : DeclarationTree) : StmtTree .statement
  | empty : StmtTree .statement
  | function (x : String) (ps : List ParameterTree) (body : StmtTree .block) :
      StmtTree .statement
  | whileLoop (e : ExprTree .whole) (body : StmtTree .block) : StmtTree .statement
  | conditional (c : StmtTree .conditional) : StmtTree .statement
  | forLoop (start : ForStartTree) (condition : ForConditionTree) (increment : ForIncrementTree)
      (body : StmtTree .block) : StmtTree .statement
  | switch (subject : ExprTree .whole) (cs : StmtTree .cases) (d : StmtTree .defaultPart) :
      StmtTree .statement
  | block (b : StmtTree .block) : StmtTree .statement
  /-- An expression, with or without a semicolon. -/
  | expr (e : ExprTree .whole) (semicolon : Bool) : StmtTree .statement
  | nested (s : StmtTree .statement) : StmtTree .nested
  | nil : StmtTree .body
  | snoc (ss : StmtTree .body) (s : StmtTree .nested) : StmtTree .body
  | braces (ss : StmtTree .body) : StmtTree .block
  | ifElse (e : ExprTree .whole) (thenBody : StmtTree .block) (elsePart : StmtTree .elsePart) :
      StmtTree .conditional
  | elseIf (c : StmtTree .conditional) : StmtTree .elseIf
  | noElse : StmtTree .elsePart
  | elseBlock (b : StmtTree .block) : StmtTree .elsePart
  | elseBranch (c : StmtTree .elseIf) : StmtTree .elsePart
  | caseBody (ss : StmtTree .body) : StmtTree .caseBody
  | noCases : StmtTree .cases
  | addCase (cs : StmtTree .cases) (value : ExprTree .whole) (b : StmtTree .caseBody) :
      StmtTree .cases
  | noDefault : StmtTree .defaultPart
  | default (b : StmtTree .caseBody) : StmtTree .defaultPart

namespace StmtTree

open Terminal in
/-- What is written. -/
def terminals : {c : StmtForm} → StmtTree c → List Terminal
  | _, declaration d => d.terminals
  | _, empty => [ofSymbol .semicolon]
  | _, function x ps body =>
    ofKeyword .functionWord :: ofName x :: ofSymbol .openParen ::
      (ParameterTree.listTerminals ps ++ ofSymbol .closeParen :: body.terminals)
  | _, whileLoop e body =>
    ofKeyword .whileWord :: ofSymbol .openParen ::
      (e.terminals ++ ofSymbol .closeParen :: body.terminals)
  | _, conditional c => c.terminals
  | _, forLoop start condition increment body =>
    ofKeyword .forWord :: ofSymbol .openParen ::
      (start.terminals ++ (condition.terminals ++ ofSymbol .semicolon ::
        (increment.terminals ++ ofSymbol .closeParen :: body.terminals)))
  | _, switch subject cs d =>
    ofKeyword .switchWord :: ofSymbol .openParen ::
      (subject.terminals ++ ofSymbol .closeParen :: ofSymbol .openBrace ::
        (cs.terminals ++ (d.terminals ++ [ofSymbol .closeBrace])))
  | _, block b => b.terminals
  | _, expr e semicolon => e.terminals ++ if semicolon then [ofSymbol .semicolon] else []
  | _, nested s => s.terminals
  | _, nil => []
  | _, snoc ss s => ss.terminals ++ s.terminals
  | _, braces ss => ofSymbol .openBrace :: (ss.terminals ++ [ofSymbol .closeBrace])
  | _, ifElse e thenBody elsePart =>
    ofKeyword .ifWord :: ofSymbol .openParen ::
      (e.terminals ++ ofSymbol .closeParen :: (thenBody.terminals ++ elsePart.terminals))
  | _, elseIf c => c.terminals
  | _, noElse => []
  | _, elseBlock b => ofKeyword .elseWord :: b.terminals
  | _, elseBranch c => ofKeyword .elseWord :: c.terminals
  | _, caseBody ss => ss.terminals ++ [ofKeyword .breakWord, ofSymbol .semicolon]
  | _, noCases => []
  | _, addCase cs value b =>
    cs.terminals ++ ofKeyword .caseWord :: (value.terminals ++ ofSymbol .colon :: b.terminals)
  | _, noDefault => []
  | _, default b => ofKeyword .defaultWord :: ofSymbol .colon :: b.terminals

/-- What is meant. -/
def abstract : {c : StmtForm} → StmtTree c → c.Abstract
  | _, declaration d => d.abstract
  | _, empty => Stmt.empty
  | _, function x ps body =>
    Stmt.function ⟨x, none⟩ (ps.map ParameterTree.abstract) body.abstract
  | _, whileLoop e body => Stmt.whileLoop e.abstract body.abstract
  | _, conditional c => c.abstract
  | _, forLoop start condition increment body =>
    Stmt.forLoop start.abstract condition.abstract increment.abstract body.abstract
  | _, switch subject cs d => Stmt.switch subject.abstract cs.abstract d.abstract
  | _, block b => Stmt.block b.abstract
  | _, expr e _ => Stmt.expr e.abstract
  | _, nested s => s.abstract
  | _, nil => []
  | _, snoc ss s => ss.abstract ++ [s.abstract]
  | _, braces ss => ss.abstract
  | _, ifElse e thenBody elsePart =>
    Stmt.ifElse e.abstract thenBody.abstract elsePart.abstract
  | _, elseIf c => c.abstract
  | _, noElse => none
  | _, elseBlock b => some b.abstract
  | _, elseBranch c => some [c.abstract]
  | _, caseBody ss => ss.abstract
  | _, noCases => []
  | _, addCase cs value b => cs.abstract ++ [Case.mk value.abstract b.abstract]
  | _, noDefault => none
  | _, default b => some b.abstract

/-- How many levels deep the tree nests.  A level is counted for each statement and each `if` behind
an `else`, besides those of its expressions. -/
def levels : {c : StmtForm} → StmtTree c → Nat
  | _, nested s => s.levels + 1
  | _, elseIf c => c.levels + 1
  | _, empty | _, nil | _, noElse | _, noCases | _, noDefault => 0
  | _, declaration d => d.levels
  | _, function _ _ body => body.levels
  | _, whileLoop e body => max e.levels body.levels
  | _, conditional c => c.levels
  | _, forLoop start condition increment body =>
    max start.levels (max condition.levels (max increment.levels body.levels))
  | _, switch subject cs d => max subject.levels (max cs.levels d.levels)
  | _, block b => b.levels
  | _, expr e _ => e.levels
  | _, snoc ss s => max ss.levels s.levels
  | _, braces ss => ss.levels
  | _, ifElse e thenBody elsePart => max e.levels (max thenBody.levels elsePart.levels)
  | _, elseBlock b => b.levels
  | _, elseBranch c => c.levels
  | _, caseBody ss => ss.levels
  | _, addCase cs value b => max cs.levels (max value.levels b.levels)
  | _, default b => b.levels

/-- Every `return` of the tree keeps its distance, every expression statement has its semicolon,
and the third part of a loop header starts with a step of a name only if it is nothing else. -/
def Settled : {c : StmtForm} → StmtTree c → Prop
  | _, empty | _, nil | _, noElse | _, noCases | _, noDefault => True
  | _, declaration d => d.Settled
  | _, function _ _ body => body.Settled
  | _, whileLoop e body => e.Settled (.symbol .closeParen) ∧ body.Settled
  | _, conditional c => c.Settled
  | _, forLoop start condition increment body =>
    start.Settled ∧ condition.Settled ∧ increment.Settled ∧ body.Settled
  | _, switch subject cs d => subject.Settled (.symbol .closeParen) ∧ cs.Settled ∧ d.Settled
  | _, block b => b.Settled
  | _, expr e semicolon => e.Settled (.symbol .semicolon) ∧ semicolon
  | _, nested s => s.Settled
  | _, snoc ss s => ss.Settled ∧ s.Settled
  | _, braces ss => ss.Settled
  | _, ifElse e thenBody elsePart =>
    e.Settled (.symbol .closeParen) ∧ thenBody.Settled ∧ elsePart.Settled
  | _, elseIf c => c.Settled
  | _, elseBlock b => b.Settled
  | _, elseBranch c => c.Settled
  | _, caseBody ss => ss.Settled
  | _, addCase cs value b => cs.Settled ∧ value.Settled (.symbol .colon) ∧ b.Settled
  | _, default b => b.Settled

end StmtTree

end SvLang
