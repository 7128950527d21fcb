import SvLang.Command

/-!
# The program

The command line on the files of the system.
-/

set_option autoImplicit false

namespace SvLang

/-- The reason that the system gives for a failure. -/
def FileError.ofSystem (e : IO.Error) : FileError :=
  match e with
  | .noFileOrDirectory .. => .notFound
  | .inappropriateType _ 20 _ => .notDirectory
  | .inappropriateType _ 21 _ => .isDirectory
  | e => .other (toString e)

/-- Access to the files of the system. -/
def systemFiles : Files IO where
  read path := do
    try
      return .ok (← IO.FS.readBinFile path)
    catch e => return .error (.ofSystem e)
  write path content := do
    try
      IO.FS.writeFile path content
      return .ok ()
    catch e => return .error (.ofSystem e)

end SvLang

/-- Runs the command that the arguments ask for, prints what it has to say, and ends with its exit
code. -/
def main (arguments : List String) : IO UInt32 := do
  let outcome ← SvLang.runCommandLine SvLang.systemFiles arguments
  IO.print outcome.stdout
  IO.eprint outcome.stderr
  return outcome.exitCode
