import SvLang.Command.Files

/-!
# File systems

A command asks for two things only, to read a file and to write one (`Files`).  What it may rely on
is said here: in each state of a `FileSystem`, reading gives what the file at the path holds, and
writing leads to a state in which that one file holds the text and all others are as they were.
Either can fail for whatever reason the system has, and then nothing has changed.

A `Disk` is such a system (`Disk.fileSystem`), with the very access to files that it had before
(`files_fileSystem`).  A path goes through directories alone there, so it still leads where it led
when a file has been written (`follow_insert`).
-/

set_option autoImplicit false

namespace SvLang

variable {σ : Type}

/-! ## Files and where they are -/

/-- Where the files of a state are, and what they hold. -/
structure Filing (σ : Type) where
  /-- Where a file can be. -/
  Place : Type
  /-- Where a path leads, if it leads anywhere.  Paths that lead to one place name one file. -/
  locate : σ → String → Option Place
  /-- What the file at a place holds, if there is one. -/
  content? : σ → Place → Option ByteArray

namespace Filing

/-- A path leads to a file that holds these bytes. -/
def Holds (f : Filing σ) (s : σ) (path : String) (bytes : ByteArray) : Prop :=
  ∃ place, f.locate s path = some place ∧ f.content? s place = some bytes

/-- Between two states, one text has been written: it is all that the file at the path holds, every
other file holds what it held, and every path leads where it led. -/
structure Written (f : Filing σ) (s : σ) (path text : String) (s' : σ) : Prop where
  locate_eq : f.locate s' = f.locate s
  holds : f.Holds s' path text.toUTF8
  content?_eq : ∀ place, f.locate s path ≠ some place → f.content? s' place = f.content? s place

end Filing

/-- A system of files.  Reading and writing always come to an end, and where they fail they change
nothing. -/
structure FileSystem (σ : Type) extends Filing σ where
  /-- The bytes of the file at a path. -/
  read : σ → String → Except FileError ByteArray
  /-- The state in which a text is the whole content of the file at a path. -/
  write : σ → String → String → Except FileError σ
  holds_of_read {s : σ} {path : String} {bytes : ByteArray} :
    read s path = .ok bytes → toFiling.Holds s path bytes
  written_of_write {s s' : σ} {path text : String} :
    write s path text = .ok s' → toFiling.Written s path text s'

/-- Access to a system of files whose state is threaded through a command. -/
def FileSystem.files (fs : FileSystem σ) : Files (StateM σ) where
  read path := do return fs.read (← get) path
  write path content := do
    match fs.write (← get) path content with
    | .ok next =>
      set next
      return .ok ()
    | .error e => return .error e

/-! ## The tree of files -/

namespace Disk

variable {disk : Disk} {key : String} {e : Entry}

@[simp]
theorem entry?_nil : disk.entry? [] = some .directory := if_pos rfl

theorem entry?_of_ne_nil {place : List String} (h : place ≠ []) :
    disk.entry? place = disk.entries[join place]? := if_neg h

theorem entry?_singleton (name : String) : disk.entry? [name] = disk.entries[name]? :=
  entry?_of_ne_nil (List.cons_ne_nil name [])

/-- Behind what is no directory, a path leads nowhere. -/
theorem toOption_follow_cons {place : List String} (h : disk.entry? place ≠ some .directory)
    (name : String) (names : List String) :
    (disk.follow place (name :: names)).toOption = none := by
  rw [follow]
  match hentry : disk.entry? place with
  | none => rfl
  | some (.file _) => rfl
  | some .directory => exact absurd hentry h

/-- Where something is set that is no directory and replaces none, the directories stay. -/
theorem entry?_insert_eq_directory_iff (hold : disk.entries[key]? ≠ some .directory)
    (hnew : e ≠ .directory) (place : List String) :
    Disk.entry? ⟨disk.entries.insert key e⟩ place = some .directory ↔
      disk.entry? place = some .directory := by
  by_cases hroot : place = []
  · simp [hroot]
  rw [entry?_of_ne_nil hroot, entry?_of_ne_nil hroot, Std.ExtTreeMap.getElem?_insert]
  by_cases hkey : key = join place
  · subst hkey
    simp [hold, hnew]
  · simp [hkey]

/-- Every path leads where it led then: all that it goes through are directories. -/
theorem follow_insert (hold : disk.entries[key]? ≠ some .directory) (hnew : e ≠ .directory)
    (names place : List String) :
    (Disk.follow ⟨disk.entries.insert key e⟩ place names).toOption =
      (disk.follow place names).toOption := by
  induction names generalizing place with
  | nil => rfl
  | cons name names ih =>
    have hiff := entry?_insert_eq_directory_iff hold hnew place
    by_cases hdir : disk.entry? place = some .directory
    · simp only [follow, hdir, hiff.2 hdir]
      rw [apply_ite Except.toOption, apply_ite Except.toOption, apply_ite Except.toOption,
        apply_ite Except.toOption, ih, ih]
    · rw [toOption_follow_cons hdir, toOption_follow_cons fun h ↦ hdir (hiff.1 h)]

/-- Where a path leads, without the names of parts that go nowhere. -/
def locate (disk : Disk) (path : String) : Option String :=
  (disk.follow [] (pathNames path)).toOption.map join

/-- What the file at a place holds. -/
def content? (disk : Disk) (place : String) : Option ByteArray :=
  match disk.entries[place]? with
  | some (.file content) => some content
  | _ => none

theorem content?_insert (bytes : ByteArray) (place : String) :
    Disk.content? ⟨disk.entries.insert key (.file bytes)⟩ place =
      if key = place then some bytes else disk.content? place := by
  rw [content?, content?, Std.ExtTreeMap.getElem?_insert]
  by_cases hkey : key = place
  · simp [hkey]
  · simp [hkey]

/-- The files of a tree. -/
def filing : Filing Disk where
  Place := String
  locate := locate
  content? := content?

/-- Reading succeeds only behind all its guards. -/
theorem exists_of_read {path : String} {bytes : ByteArray} (h : disk.read path = .ok bytes) :
    ∃ place, disk.follow [] (pathNames path) = .ok place ∧
      disk.entry? place = some (.file bytes) := by
  simp only [read, bind, Except.bind, throw, throwThe, MonadExceptOf.throw, pure, Except.pure] at h
  split at h
  · cases h
  match hfollow : disk.follow [] (pathNames path) with
  | .error e => simp [hfollow] at h
  | .ok place =>
    refine ⟨place, rfl, ?_⟩
    match hentry : disk.entry? place with
    | none => simp [hfollow, hentry] at h
    | some .directory => simp [hfollow, hentry] at h
    | some (.file content) =>
      simp only [hfollow, hentry] at h
      split at h
      · cases h
      · rw [Except.ok.inj h]

theorem exists_of_write {next : Disk} {path text : String}
    (h : disk.write path text = .ok next) :
    ∃ place, disk.follow [] (pathNames path) = .ok place ∧
      disk.entry? place ≠ some .directory ∧
        next = ⟨disk.entries.insert (join place) (.file text.toUTF8)⟩ := by
  simp only [write, bind, Except.bind, throw, throwThe, MonadExceptOf.throw, pure, Except.pure] at h
  split at h
  · cases h
  match hfollow : disk.follow [] (pathNames path) with
  | .error e => simp [hfollow] at h
  | .ok place =>
    refine ⟨place, rfl, ?_⟩
    simp only [hfollow] at h
    split at h
    · cases h
    match hentry : disk.entry? place with
    | none =>
      simp only [hentry] at h
      exact ⟨by simp, (Except.ok.inj h).symm⟩
    | some .directory => simp [hentry] at h
    | some (.file content) =>
      simp only [hentry] at h
      exact ⟨by simp, (Except.ok.inj h).symm⟩

theorem holds_of_read {path : String} {bytes : ByteArray} (h : disk.read path = .ok bytes) :
    filing.Holds disk path bytes := by
  obtain ⟨place, hfollow, hentry⟩ := exists_of_read h
  have hroot : place ≠ [] := fun h ↦ by simp [h] at hentry
  rw [entry?_of_ne_nil hroot] at hentry
  refine ⟨join place, ?_, ?_⟩
  · simp [filing, locate, hfollow, Except.toOption]
  · simp [filing, content?, hentry]

theorem written_of_write {next : Disk} {path text : String}
    (h : disk.write path text = .ok next) : filing.Written disk path text next := by
  obtain ⟨place, hfollow, hentry, rfl⟩ := exists_of_write h
  have hroot : place ≠ [] := fun h ↦ hentry (if_pos h)
  rw [entry?_of_ne_nil hroot] at hentry
  have hlocate : disk.locate path = some (join place) := by
    simp [locate, hfollow, Except.toOption]
  have heq : ∀ other, Disk.locate ⟨disk.entries.insert (join place) (.file text.toUTF8)⟩ other =
      disk.locate other := fun other ↦ by
    rw [locate, follow_insert hentry (by simp), locate]
  refine ⟨funext heq, ⟨join place, (heq path).trans hlocate, ?_⟩, fun other hne ↦ ?_⟩
  · exact (content?_insert _ _).trans (if_pos rfl)
  · refine (content?_insert _ _).trans (if_neg fun h ↦ hne ?_)
    rw [← h]
    exact hlocate

/-- A tree of files is a system of files. -/
def fileSystem : FileSystem Disk where
  toFiling := filing
  read := read
  write := write
  holds_of_read := holds_of_read
  written_of_write := written_of_write

theorem files_fileSystem : fileSystem.files = Disk.files := by
  rw [FileSystem.files, Disk.files, Files.mk.injEq]
  refine ⟨rfl, ?_⟩
  funext path text disk
  simp only [bind, StateT.bind, get, getThe, MonadStateOf.get, StateT.get, fileSystem, pure]
  cases disk.write path text <;> rfl

end Disk

end SvLang
