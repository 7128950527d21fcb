import SvLang.Token
import SvLang.Text.Quoted

/-!
# Errors of the grammar

A program is refused at the first token that does not fit.  The error holds where that token was
written and what is wrong with it; only `message` puts this into words.

Many places of the grammar leave no choice: one kind of token has to stand there.  Each such place
is a `Landmark`, which knows the kind and how the place is described.
-/

set_option autoImplicit false

namespace SvLang

/-! ## Places without a choice -/

/-- A place of the grammar where one kind of token has to stand. -/
inductive Landmark where
  | name
  | arrayBracket | arrayAssign | arrayOpen | arrayClose
  | blockOpen | blockClose
  | parametersOpen | parametersClose
  | whileOpen | ifOpen | switchOpen | conditionClose
  | forOpen | forInitializerEnd | forConditionEnd | forClose
  | casesOpen | caseColon | defaultColon | caseBreak | breakEnd | casesClose
  | groupClose | argumentsClose
  deriving DecidableEq, Repr

namespace Landmark

/-- The kind of token that has to stand there. -/
def kind : Landmark → TokenKind
  | name => .identifier
  | arrayBracket => .symbol .closeBracket
  | arrayAssign => .symbol .assign
  | arrayOpen | blockOpen | casesOpen => .symbol .openBrace
  | arrayClose | blockClose | casesClose => .symbol .closeBrace
  | parametersOpen | whileOpen | ifOpen | switchOpen | forOpen => .symbol .openParen
  | parametersClose | conditionClose | forClose | groupClose | argumentsClose =>
    .symbol .closeParen
  | forInitializerEnd | forConditionEnd | breakEnd => .symbol .semicolon
  | caseColon | defaultColon => .symbol .colon
  | caseBreak => .keyword .breakWord

/-- How messages describe the place. -/
def description : Landmark → String
  | name => "as a name"
  | arrayBracket => "in array declaration"
  | arrayAssign => "before array initializer"
  | arrayOpen => "to open array initializer"
  | arrayClose => "to close array initializer"
  | blockOpen => "to open a block"
  | blockClose => "to close a block"
  | parametersOpen => "after function name"
  | parametersClose => "after function parameters"
  | whileOpen => "after 'while'"
  | ifOpen => "after 'if'"
  | switchOpen => "after 'switch'"
  | conditionClose => "to close the condition"
  | forOpen => "after 'for'"
  | forInitializerEnd => "after for-loop initializer"
  | forConditionEnd => "after for-loop condition"
  | forClose => "to close the for-loop header"
  | casesOpen => "to open the switch body"
  | caseColon => "after case value"
  | defaultColon => "after 'default'"
  | caseBreak => "to end the case"
  | breakEnd => "after 'break'"
  | casesClose => "to close the switch body"
  | groupClose => "to close parenthesized expression"
  | argumentsClose => "to close call arguments"

/-- No place of the grammar asks for the end of the input. -/
theorem kind_ne_eof (l : Landmark) : l.kind ≠ .eof := by cases l <;> simp [kind]

end Landmark

/-! ## Errors -/

/-- What is wrong with the token at which a program is refused. -/
inductive ParseProblem where
  /-- One kind of token had to stand there, and another was found. -/
  | expected (place : Landmark) (found : TokenKind)
  /-- No expression starts with this token. -/
  | unexpected (found : TokenKind) (text : String)
  /-- The declaration of this name does not end in a semicolon. -/
  | missingSemicolon (name : String)
  /-- The condition of a `for` loop is neither left out nor a name, nor does it compare one. -/
  | malformedForCondition (found : TokenKind)
  /-- A parameter is not a type and a name. -/
  | malformedParameter (found : TokenKind)
  /-- The program nests deeper than the limit allows. -/
  | tooDeep (limit : Nat)
  deriving DecidableEq, Repr

/-- A refused program: where the token that does not fit was written, and what is wrong. -/
structure ParseError where
  offset : UInt32
  problem : ParseProblem
  deriving DecidableEq, Repr

/-- The text of the error. -/
def ParseError.message (e : ParseError) : String :=
  let place := s!"at byte {e.offset.toNat}"
  match e.problem with
  | .expected l found =>
    s!"expected {l.kind.name} {l.description}, found {found.name} {place}"
  | .unexpected found text => s!"unexpected token {found.name} ({Text.quoted text}) {place}"
  | .missingSemicolon name => s!"missing semicolon after declaration of '{name}' {place}"
  | .malformedForCondition found =>
    s!"malformed for-loop condition {place}: found {found.name}"
  | .malformedParameter found =>
    s!"malformed parameter {place}: expected a type keyword followed by an identifier, " ++
      s!"found {found.name}"
  | .tooDeep limit => s!"nesting deeper than {limit} levels {place}"

end SvLang
