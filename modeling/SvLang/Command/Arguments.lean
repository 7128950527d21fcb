/-!
# The command line

The program has three commands, each on one source file: `compile` writes Java, `parse` dumps the
program, and `tokens` lists the tokens.  Options follow the command in any order, each at most
once, and each only with a command that has it.
-/

set_option autoImplicit false

namespace SvLang

/-- How a dump is written. -/
inductive Format where
  | pretty | json
  deriving DecidableEq, Repr

/-- The format of a given name. -/
def Format.ofName? : String → Option Format
  | "pretty" => some pretty
  | "json" => some json
  | _ => none

/-- What the program is asked to do. -/
inductive Command where
  | compile (file output : String)
  | parse (file : String) (format : Format) (analyze : Bool)
  | tokens (file : String) (format : Format)
  deriving DecidableEq, Repr

/-- Why a command line asks for nothing. -/
inductive UsageError where
  | missingCommand
  | unknownCommand (name : String)
  | missingFile
  | emptyPath
  | unexpectedArgument (argument : String)
  | missingValue (option : String)
  | repeated (option : String)
  | unknownFormat (name : String)
  deriving DecidableEq, Repr

/-- The text of the error. -/
def UsageError.message : UsageError → String
  | missingCommand => "a command is required: compile, parse or tokens"
  | unknownCommand name => s!"unknown command '{name}'"
  | missingFile => "a source file is required"
  | emptyPath => "a path may not be empty"
  | unexpectedArgument argument => s!"unexpected argument '{argument}'"
  | missingValue option => s!"a value is required for '{option}'"
  | repeated option => s!"'{option}' may be given only once"
  | unknownFormat name => s!"unknown format '{name}': pretty or json"

/-- What the arguments behind the command say. -/
structure Arguments where
  file? : Option String := none
  output? : Option String := none
  format? : Option Format := none
  noAnalyze : Bool := false
  deriving DecidableEq, Repr

namespace Arguments

/-- Whether an argument is an option.  A dash alone is none. -/
def isOption (argument : String) : Bool := argument.startsWith "-" && argument != "-"

/-- A path, which is neither an option nor empty. -/
def path (argument : String) (ifOption : UsageError) : Except UsageError String :=
  if isOption argument then .error ifOption
  else if argument = "" then .error .emptyPath
  else .ok argument

/-- Sets the output path. -/
def withOutput (a : Arguments) (value : String) : Except UsageError Arguments := do
  if a.output?.isSome then throw (.repeated "--output")
  return { a with output? := some (← path value (.missingValue "--output")) }

/-- Sets the format. -/
def withFormat (a : Arguments) (value : String) : Except UsageError Arguments := do
  if a.format?.isSome then throw (.repeated "--format")
  match Format.ofName? value with
  | some format => return { a with format? := some format }
  | none => throw (.unknownFormat value)

/-- Sets the flag that turns analysis off. -/
def withNoAnalyze (a : Arguments) : Except UsageError Arguments := do
  if a.noAnalyze then throw (.repeated "--no-analyze")
  return { a with noAnalyze := true }

/-- Sets the source file. -/
def withFile (a : Arguments) (value : String) : Except UsageError Arguments := do
  if a.file?.isSome then throw (.unexpectedArgument value)
  return { a with file? := some (← path value (.unexpectedArgument value)) }

/-- Reads arguments from left to right, on top of what has been read. -/
def read (a : Arguments) : List String → Except UsageError Arguments
  | [] => .ok a
  | "-o" :: value :: rest | "--output" :: value :: rest => do
    read (← a.withOutput value) rest
  | "--format" :: value :: rest => do
    read (← a.withFormat value) rest
  | "--no-analyze" :: rest => do
    read (← a.withNoAnalyze) rest
  | "-o" :: [] | "--output" :: [] => .error (.missingValue "--output")
  | "--format" :: [] => .error (.missingValue "--format")
  | value :: rest => do
    read (← a.withFile value) rest

end Arguments

namespace Command

/-- Where Java is written if the command line does not say. -/
def defaultOutput : String := "Main.java"

/-- The command of a name with its arguments. -/
def ofArguments (name : String) (a : Arguments) : Except UsageError Command :=
  match a.file? with
  | none => .error .missingFile
  | some file =>
    match name, a with
    | "compile", ⟨_, output?, none, false⟩ => .ok (compile file (output?.getD defaultOutput))
    | "parse", ⟨_, none, format?, noAnalyze⟩ =>
      .ok (parse file (format?.getD .pretty) (!noAnalyze))
    | "tokens", ⟨_, none, format?, false⟩ => .ok (tokens file (format?.getD .pretty))
    | _, ⟨_, some _, _, _⟩ => .error (.unexpectedArgument "--output")
    | _, ⟨_, _, some _, _⟩ => .error (.unexpectedArgument "--format")
    | _, _ => .error (.unexpectedArgument "--no-analyze")

/-- The command that a command line asks for. -/
def ofCommandLine : List String → Except UsageError Command
  | [] => .error .missingCommand
  | name :: rest =>
    if name = "compile" ∨ name = "parse" ∨ name = "tokens" then do
      ofArguments name (← ({} : Arguments).read rest)
    else .error (.unknownCommand name)

end Command

end SvLang
