import SvLang.Command.Arguments
import SvLang.Command.Files
import SvLang.Compilation
import SvLang.Outline.Program

/-!
# Running a command

A command reads one source file, works on its text, and either answers with a text or fails.  What
it prints and with which code it ends is its `Outcome`; a file is written by `compile` alone, and
only when nothing can fail any more.

## What is here

* `Failure`: the first check that a command does not pass.  The file has to be named as a source,
  to be readable as text and to be of limited size; the source has to be accepted; and the output
  has to be writable.
* `Command.run`: a command on any access to files.
-/

set_option autoImplicit false

namespace SvLang

/-! ## Failures -/

/-- The first check that a command does not pass. -/
inductive Failure where
  /-- The file is not named as a source. -/
  | fileType (path : String)
  | unreadable (path : String) (e : FileError)
  /-- The file has too many bytes. -/
  | tooLarge (size : Nat)
  | refused (e : CompileError)
  /-- The source is no list of tokens, and more was not asked for. -/
  | noTokens (e : LexError)
  | unwritable (path : String) (e : FileError)
  deriving DecidableEq, Repr

/-- The extension of a source file. -/
def sourceExtension : String := "sv"

/-- How many bytes a source file may have. -/
def maxSourceSize : Nat := 1000000

/-- The text of the failure. -/
def Failure.message : Failure → String
  | fileType path => s!"invalid file type: '{path}' (expected a .{sourceExtension} file)"
  | unreadable path e => s!"failed to read '{path}': {e.message}"
  | tooLarge size => s!"source file exceeds {maxSourceSize / 1000000}MB limit ({size} bytes)"
  | refused e => e.report
  | noTokens e => e.message
  | unwritable path e => s!"failed to write '{path}': {e.message}"

/-! ## What a command prints -/

/-- What a command leaves behind besides files: its exit code, and what it prints. -/
structure Outcome where
  exitCode : UInt32
  stdout : String
  stderr : String
  deriving DecidableEq, Repr

/-- The outcome of a command that answers with a text or fails. -/
def Outcome.ofExcept : Except Failure String → Outcome
  | .ok text => ⟨0, text, ""⟩
  | .error f => ⟨1, "", "error: " ++ f.message ++ "\n"⟩

/-- The outcome of a command line that asks for nothing. -/
def Outcome.ofUsageError (e : UsageError) : Outcome := ⟨2, "", "error: " ++ e.message ++ "\n"⟩

/-- One line of a token listing. -/
def Token.listing (t : Token) : String :=
  t.kind.name ++ " " ++ Text.quoted t.text ++ " @" ++ toString t.span.start.toNat ++ ".." ++
    toString t.span.stop.toNat

/-- The text of a token dump. -/
def tokenDump (format : Format) (ts : List Token) : String :=
  match format with
  | .pretty => String.join (ts.map fun t ↦ t.listing ++ "\n")
  | .json => (Outline.list (ts.map Token.outline)).prettyJson ++ "\n"

/-- The text of a program dump.  The names are there if the program was analyzed, and only JSON has
a place for them. -/
def programDump (format : Format) (p : Program) (names? : Option (List String)) : String :=
  match format with
  | .pretty => p.outline.indented ++ "\n"
  | .json =>
    let symbols := match names? with
      | none => []
      | some names => [("symbols", Outline.list (names.map Outline.text))]
    (Outline.record "Report" (("program", p.outline) :: symbols)).prettyJson ++ "\n"

/-! ## Running -/

namespace Command

variable {m : Type → Type} [Monad m]

/-- The text of a source file. -/
def readSource (files : Files m) (path : String) : ExceptT Failure m String := do
  if extension? path ≠ some sourceExtension then throw (.fileType path)
  match ← files.read path with
  | .error e => throw (.unreadable path e)
  | .ok bytes =>
    match String.fromUTF8? bytes with
    | none => throw (.unreadable path .invalidText)
    | some source =>
      if maxSourceSize < bytes.size then throw (.tooLarge bytes.size)
      return source

/-- Writes the Java text of a source. -/
def runCompile (files : Files m) (file output : String) : ExceptT Failure m String := do
  let source ← readSource files file
  match compileSource source with
  | .error e => throw (.refused e)
  | .ok java =>
    match ← files.write output java with
    | .error e => throw (.unwritable output e)
    | .ok () => return s!"Code generated successfully: {output}\n"

/-- Dumps the program of a source, analyzed or as it was parsed. -/
def runParse (files : Files m) (file : String) (format : Format) (analyze : Bool) :
    ExceptT Failure m String := do
  let source ← readSource files file
  if analyze then
    match analyzeSource source with
    | .error e => throw (.refused e)
    | .ok a => return programDump format a.program (some a.symbols.names)
  else
    match parseSource source with
    | .error e => throw (.refused e)
    | .ok p => return programDump format p none

/-- Lists the tokens of a source. -/
def runTokens (files : Files m) (file : String) (format : Format) : ExceptT Failure m String := do
  let source ← readSource files file
  match tokenize source with
  | .error e => throw (.noTokens e)
  | .ok ts => return tokenDump format ts

/-- Runs a command. -/
def run (files : Files m) (command : Command) : m Outcome :=
  Outcome.ofExcept <$> match command with
    | compile file output => (runCompile files file output).run
    | parse file format analyze => (runParse files file format analyze).run
    | tokens file format => (runTokens files file format).run

end Command

/-- Runs the command that a command line asks for.  A line that asks for nothing is refused before
any file is touched. -/
def runCommandLine {m : Type → Type} [Monad m] (files : Files m) (arguments : List String) :
    m Outcome :=
  match Command.ofCommandLine arguments with
  | .error e => pure (.ofUsageError e)
  | .ok command => command.run files

end SvLang
