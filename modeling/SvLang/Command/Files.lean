import Std.Data.ExtTreeMap

/-!
# Files

What a command needs of the outside world: to read a file and to write one.  `Files m` is this
access in a monad `m`; a command is written against it and so runs the same on the real files of a
system and on a `Disk`, which is a tree of files as a value.

## What is here

* `FileError`: why a file cannot be read or written.
* `Files`: access to files in a monad.  Either the access succeeds, or it says why not.
* `fileName?` and `extension?`, the parts of a path that decide what a file is taken for.
* `Disk` and `Disk.files`: access to a tree of files by paths relative to its root.
-/

set_option autoImplicit false

namespace SvLang

/-! ## Access to files -/

/-- Why a file cannot be read or written. -/
inductive FileError where
  | notFound
  | notDirectory
  | isDirectory
  | nameTooLong
  | invalidText
  /-- Any other reason, in the words of the system. -/
  | other (reason : String)
  deriving DecidableEq, Repr

/-- The text of the error. -/
def FileError.message : FileError → String
  | notFound => "No such file or directory (os error 2)"
  | notDirectory => "Not a directory (os error 20)"
  | isDirectory => "Is a directory (os error 21)"
  | nameTooLong => "File name too long (os error 36)"
  | invalidText => "stream did not contain valid UTF-8"
  | other reason => reason

/-- Access to files in a monad. -/
structure Files (m : Type → Type) where
  /-- The bytes of the file at a path. -/
  read : String → m (Except FileError ByteArray)
  /-- Makes a text the whole content of the file at a path. -/
  write : String → String → m (Except FileError Unit)

/-! ## Paths -/

/-- The names that a path goes through.  Repeated slashes and single dots go nowhere. -/
def pathNames (path : String) : List String :=
  (path.splitOn "/").filter fun name ↦ name ≠ "" ∧ name ≠ "."

/-- The name at the end of a path. -/
def fileName? (path : String) : Option String :=
  (pathNames path).getLast?.filter (· ≠ "..")

/-- What stands behind the last dot of a file name, unless that dot is its first character. -/
def extensionOf? (name : List Char) : Option (List Char) :=
  let backward := name.reverse
  match backward.dropWhile (· ≠ '.') with
  | _ :: _ :: _ => some (backward.takeWhile (· ≠ '.')).reverse
  | _ => none

/-- The extension of the file at a path. -/
def extension? (path : String) : Option String :=
  (fileName? path).bind fun name ↦ (extensionOf? name.toList).map String.ofList

example : extensionOf? ['a', '.', 's', 'v'] = some ['s', 'v'] := by decide
example : extensionOf? ['.', 's', 'v'] = none := by decide
example : extensionOf? ['.', '.', 's', 'v'] = some ['s', 'v'] := by decide

/-! ## A tree of files -/

/-- What a path can lead to. -/
inductive Entry where
  | file (content : ByteArray)
  | directory

/-- A tree of files: what each path leads to, if it leads to anything.  Paths are kept without the
parts that go nowhere.  The root itself is a directory and needs no entry. -/
structure Disk where
  entries : Std.ExtTreeMap String Entry

namespace Disk

/-- The tree without a file. -/
def empty : Disk := ⟨∅⟩

/-- The longest name that a file or directory can have, in bytes. -/
def maxNameLength : Nat := 255

/-- The path that goes through these names. -/
def join (names : List String) : String := String.intercalate "/" names

/-- What the path through these names leads to. -/
def entry? (disk : Disk) (names : List String) : Option Entry :=
  if names = [] then some .directory else disk.entries[join names]?

/-- Follows names from a place on.  All but the last of them have to lead to directories; two dots
lead back, and from the root nowhere. -/
def follow (disk : Disk) (place : List String) : List String → Except FileError (List String)
  | [] => .ok place
  | name :: names =>
    match disk.entry? place with
    | none => .error .notFound
    | some (.file _) => .error .notDirectory
    | some .directory =>
      if name = ".." then disk.follow place.dropLast names
      else if maxNameLength < name.utf8ByteSize then .error .nameTooLong
      else disk.follow (place ++ [name]) names

/-- The bytes of the file at a path. -/
def read (disk : Disk) (path : String) : Except FileError ByteArray := do
  if path = "" then throw .notFound
  match disk.entry? (← disk.follow [] (pathNames path)) with
  | none => throw .notFound
  | some .directory => throw .isDirectory
  | some (.file content) =>
    if path.endsWith "/" then throw .notDirectory
    return content

/-- The tree in which a text is the whole content of the file at a path. -/
def write (disk : Disk) (path content : String) : Except FileError Disk := do
  if path = "" then throw .notFound
  let place ← disk.follow [] (pathNames path)
  if path.endsWith "/" then throw .isDirectory
  match disk.entry? place with
  | some .directory => throw .isDirectory
  | none | some (.file _) =>
    return ⟨disk.entries.insert (join place) (.file content.toUTF8)⟩

/-- Access to a tree of files that is threaded through a command.  Where writing fails, the tree
stays as it is. -/
def files : Files (StateM Disk) where
  read path := do return (← get).read path
  write path content := do
    match (← get).write path content with
    | .ok next =>
      set next
      return .ok ()
    | .error e => return .error e

end Disk

end SvLang
