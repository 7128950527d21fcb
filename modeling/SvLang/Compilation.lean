import SvLang.Analysis
import SvLang.Grammar
import SvLang.Java
import SvLang.Lexer

/-!
# From source text to Java

A source passes through three stages that may refuse it: it is read as tokens, the tokens are read
as a program, and the program is analyzed.  An analyzed program always has a Java text.
-/

set_option autoImplicit false

namespace SvLang

/-- The first error of a source, with the stage that found it. -/
inductive CompileError where
  | lex (e : LexError)
  | parse (e : ParseError)
  | semantic (e : SemanticError)
  deriving DecidableEq, Repr

namespace CompileError

/-- The stage that found the error. -/
def stage : CompileError → String
  | lex _ => "lex error"
  | parse _ => "parse error"
  | semantic _ => "semantic error"

/-- The text of the error itself. -/
def message : CompileError → String
  | lex e => e.message
  | parse e => e.message
  | semantic e => e.message

/-- The text of the error behind the name of its stage. -/
def report (e : CompileError) : String := e.stage ++ ": " ++ e.message

end CompileError

/-- The program that a source writes, not yet analyzed. -/
def parseSource (source : String) : Except CompileError Program := do
  let tokens ← (tokenize source).mapError .lex
  (parse tokens).mapError .parse

/-- An analyzed program and the names it declares. -/
structure AnalyzedProgram where
  program : Program
  symbols : SymbolTable

/-- The program that a source writes, analyzed, or the first error. -/
def analyzeSource (source : String) : Except CompileError AnalyzedProgram := do
  let p ← parseSource source
  let analyzed := p.analyze .empty
  match analyzed.error? with
  | none => return ⟨analyzed.value, analyzed.symbols⟩
  | some e => throw (.semantic e)

/-- The Java text of a source, or the first error. -/
def compileSource (source : String) : Except CompileError String := do
  let analyzed ← analyzeSource source
  return Java.emit analyzed.program

end SvLang
