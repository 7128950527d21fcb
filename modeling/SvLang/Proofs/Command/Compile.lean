import Mathlib.Logic.Basic
import SvLang.Command
import SvLang.Proofs.Command.FileSystem
import SvLang.Proofs.Source

/-!
# Compiling is all or nothing

Compiling goes through seven checks: how the file is named, whether it can be read as text, how
large it is, the three stages of the compilation, and whether the output can be written.  On any
system of files it leaves behind either the Java text and the line that says so, or a message about
the first check that is not passed and no trace in the files (`AllOrNothing`,
`allOrNothing_compile`).

What is to be shown is on the side of the files and of the stages alone: `Passes` says that every
check is passed, and `FirstFailure` which one is the first that is not; there is only one such
(`FirstFailure.unique`).  One of the two holds (`passes_or_firstFailure`), and each decides what
running comes to (`Passes.run_compile`, `FirstFailure.run_compile`).
-/

set_option autoImplicit false

namespace SvLang

/-! ## Bytes and text -/

theorem fromUTF8?_toUTF8 (source : String) : String.fromUTF8? source.toUTF8 = some source := by
  rw [String.fromUTF8?, String.toUTF8_eq_toByteArray, dif_pos source.isValidUTF8]
  rfl

theorem toUTF8_of_fromUTF8? {bytes : ByteArray} {source : String}
    (h : String.fromUTF8? bytes = some source) : source.toUTF8 = bytes := by
  rw [String.fromUTF8?] at h
  split at h
  · cases h
    rfl
  · cases h

namespace Command

/-! ## The checks -/

variable {σ : Type} {fs : FileSystem σ} {file output : String} {s : σ}

/-- The checks that compiling goes through, in their order. -/
inductive Check where
  | extension | read | size | lex | parse | semantic | write
  deriving DecidableEq, Repr

/-- The words that a message starts with if the check is not passed. -/
def Check.words : Check → String
  | extension => "invalid file type"
  | read => "failed to read"
  | size => "source file exceeds"
  | lex => "lex error"
  | parse => "parse error"
  | semantic => "semantic error"
  | write => "failed to write"

/-- The file has the extension of a source, and it holds this text, which is not too large. -/
structure HasSource (fs : FileSystem σ) (s : σ) (file source : String) : Prop where
  extension : extension? file = some "sv"
  read : fs.read s file = .ok source.toUTF8
  size : source.utf8ByteSize ≤ 1000000

/-- The first check that is not passed, and the failure that says so.  Each check presumes that all
before it are passed: two of them are made on the file, and one more on the text that it holds;
`HasSource` stands for these three in what the stages and the output are checked for. -/
inductive FirstFailure (fs : FileSystem σ) (s : σ) (file output : String) :
    Check → Failure → Prop
  | extension (h : extension? file ≠ some "sv") :
    FirstFailure fs s file output .extension (.fileType file)
  | read {e : FileError} (hextension : extension? file = some "sv")
    (h : fs.read s file = .error e) : FirstFailure fs s file output .read (.unreadable file e)
  | text {bytes : ByteArray} (hextension : extension? file = some "sv")
    (hread : fs.read s file = .ok bytes) (h : ∀ source : String, source.toUTF8 ≠ bytes) :
    FirstFailure fs s file output .read (.unreadable file .invalidText)
  | size {source : String} (hextension : extension? file = some "sv")
    (hread : fs.read s file = .ok source.toUTF8) (h : 1000000 < source.utf8ByteSize) :
    FirstFailure fs s file output .size (.tooLarge source.utf8ByteSize)
  | lex {source : String} {e : LexError} (hsource : HasSource fs s file source)
    (h : tokenize source = .error e) : FirstFailure fs s file output .lex (.refused (.lex e))
  | parse {source : String} {ts : List Token} {e : ParseError}
    (hsource : HasSource fs s file source) (htokens : tokenize source = .ok ts)
    (h : SvLang.parse ts = .error e) : FirstFailure fs s file output .parse (.refused (.parse e))
  | semantic {source : String} {p : Program} {e : SemanticError}
    (hsource : HasSource fs s file source) (hprogram : parseSource source = .ok p)
    (h : (p.analyze .empty).error? = some e) :
    FirstFailure fs s file output .semantic (.refused (.semantic e))
  | write {source java : String} {e : FileError} (hsource : HasSource fs s file source)
    (hjava : compileSource source = .ok java) (h : fs.write s output java = .error e) :
    FirstFailure fs s file output .write (.unwritable output e)

/-- Every check is passed: the file has a source, the source has a Java text, and this can be
written. -/
structure Passes (fs : FileSystem σ) (s : σ) (file output source java : String) : Prop extends
    HasSource fs s file source where
  compiles : compileSource source = .ok java
  writes : ∃ next, fs.write s output java = .ok next

/-- A message starts with the words of this check and of no other one. -/
def Check.IsNamedBy (c : Check) (message : String) : Prop :=
  ∀ c' : Check, c'.words.toList <+: message.toList ↔ c' = c

/-- What a run from the state `s` leaves behind, which is what it prints and the state it leads to.
Where every check is passed, this is the Java text in the output and the line that says so, and
otherwise a message about the first check that is not, with the state as it was. -/
structure AllOrNothing (fs : FileSystem σ) (s : σ) (file output : String) (result : Outcome × σ) :
    Prop where
  exitCode_eq_zero_iff : result.1.exitCode = 0 ↔
    ∃ source java, Passes fs s file output source java
  done : ∀ source java, Passes fs s file output source java →
    result.1 = ⟨0, s!"Code generated successfully: {output}\n", ""⟩ ∧
      fs.Written s output java result.2
  failed : (¬ ∃ source java, Passes fs s file output source java) →
    ∃ c f, FirstFailure fs s file output c f ∧ c.IsNamedBy f.message ∧
      result = (⟨1, "", "error: " ++ f.message ++ "\n"⟩, s)

/-! ## Running -/

section Running

variable {ε α β : Type} {x : ExceptT ε (StateM σ) α} {s' : σ}

theorem run_bind_of_ok {a : α} (h : x.run.run s = (.ok a, s'))
    (k : α → ExceptT ε (StateM σ) β) : (x >>= k).run.run s = (k a).run.run s' := by
  rw [ExceptT.run_bind, StateT.run_bind, h]
  rfl

theorem run_bind_of_error {e : ε} (h : x.run.run s = (.error e, s'))
    (k : α → ExceptT ε (StateM σ) β) : (x >>= k).run.run s = (.error e, s') := by
  rw [ExceptT.run_bind, StateT.run_bind, h]
  rfl

theorem run_liftM {a : α} {step : StateM σ α} (h : step.run s = (a, s')) :
    (liftM step : ExceptT ε (StateM σ) α).run.run s = (.ok a, s') := by
  show (Except.ok (step.run s).1, (step.run s).2) = (.ok a, s')
  rw [h]

theorem run_read (fs : FileSystem σ) (s : σ) (path : String) :
    (fs.files.read path).run s = (fs.read s path, s) := rfl

theorem run_write_of_ok {path text : String} (h : fs.write s path text = .ok s') :
    (fs.files.write path text).run s = (.ok (), s') := by
  simp only [FileSystem.files, StateT.run_bind, StateT.run_get, pure_bind, h]
  rfl

theorem run_write_of_error {e : FileError} {path text : String}
    (h : fs.write s path text = .error e) :
    (fs.files.write path text).run s = (.error e, s) := by
  simp only [FileSystem.files, StateT.run_bind, StateT.run_get, pure_bind, h]
  rfl

end Running

theorem run_readSource_of_extension (h : extension? file ≠ some "sv") :
    (readSource fs.files file).run.run s = (.error (.fileType file), s) := by
  rw [readSource, sourceExtension, if_pos h]
  rfl

theorem run_readSource_of_unreadable {e : FileError} (hextension : extension? file = some "sv")
    (h : fs.read s file = .error e) :
    (readSource fs.files file).run.run s = (.error (.unreadable file e), s) := by
  rw [readSource, sourceExtension, if_neg (not_not.2 hextension),
    run_bind_of_ok (run_liftM (run_read fs s file))]
  simp only [h]
  rfl

/-- Bytes that could be read are judged by what they are alone. -/
theorem run_readSource_of_bytes {bytes : ByteArray} (hextension : extension? file = some "sv")
    (hread : fs.read s file = .ok bytes) :
    (readSource fs.files file).run.run s =
      (match String.fromUTF8? bytes with
        | none => .error (.unreadable file .invalidText)
        | some source =>
          if maxSourceSize < bytes.size then .error (.tooLarge bytes.size) else .ok source, s) := by
  rw [readSource, sourceExtension, if_neg (not_not.2 hextension),
    run_bind_of_ok (run_liftM (run_read fs s file))]
  simp only [hread]
  cases String.fromUTF8? bytes with
  | none => rfl
  | some source =>
    by_cases hsize : maxSourceSize < bytes.size
    · simp only [if_pos hsize]
      rfl
    · simp only [if_neg hsize]
      rfl

theorem HasSource.run_readSource {source : String} (h : HasSource fs s file source) :
    (readSource fs.files file).run.run s = (.ok source, s) := by
  have hsize : ¬ maxSourceSize < source.toUTF8.size := Nat.not_lt.2 h.size
  rw [run_readSource_of_bytes h.extension h.read, fromUTF8?_toUTF8]
  simp only [if_neg hsize]

/-- Compiling answers as its last step does, from the state that this step leads to. -/
theorem run_compile_of {answer : Except Failure String} {s' : σ}
    (h : (runCompile fs.files file output).run.run s = (answer, s')) :
    ((compile file output).run fs.files).run s = (.ofExcept answer, s') := by
  rw [run, StateT.run_map, h]
  rfl

theorem run_compile_of_error {f : Failure}
    (h : (readSource fs.files file).run.run s = (.error f, s)) :
    ((compile file output).run fs.files).run s = (.ofExcept (.error f), s) :=
  run_compile_of (run_bind_of_error h _)

theorem HasSource.run_compile_of_refused {source : String} {e : CompileError}
    (hsource : HasSource fs s file source) (h : compileSource source = .error e) :
    ((compile file output).run fs.files).run s = (.ofExcept (.error (.refused e)), s) := by
  refine run_compile_of ?_
  rw [runCompile, run_bind_of_ok hsource.run_readSource, h]
  rfl

theorem HasSource.run_compile_of_unwritable {source java : String} {e : FileError}
    (hsource : HasSource fs s file source) (hjava : compileSource source = .ok java)
    (h : fs.write s output java = .error e) :
    ((compile file output).run fs.files).run s =
      (.ofExcept (.error (.unwritable output e)), s) := by
  refine run_compile_of ?_
  rw [runCompile, run_bind_of_ok hsource.run_readSource, hjava]
  show (liftM _ >>= _ : ExceptT Failure (StateM σ) String).run.run s = _
  rw [run_bind_of_ok (run_liftM (run_write_of_error h))]
  rfl

/-- Where every check is passed, the last state is the one that writing leads to. -/
theorem Passes.run_compile {source java : String} (h : Passes fs s file output source java) :
    ∃ next, fs.write s output java = .ok next ∧
      ((compile file output).run fs.files).run s =
        (⟨0, s!"Code generated successfully: {output}\n", ""⟩, next) := by
  obtain ⟨next, hwrite⟩ := h.writes
  have hrun : (runCompile fs.files file output).run.run s =
      (.ok s!"Code generated successfully: {output}\n", next) := by
    rw [runCompile, run_bind_of_ok h.run_readSource, h.compiles]
    show (liftM _ >>= _ : ExceptT Failure (StateM σ) String).run.run s = _
    rw [run_bind_of_ok (run_liftM (run_write_of_ok hwrite))]
    rfl
  exact ⟨next, hwrite, run_compile_of hrun⟩

/-- What the first check that is not passed finds is what compiling fails with, and nothing has
changed then. -/
theorem FirstFailure.run_compile {c : Check} {f : Failure}
    (h : FirstFailure fs s file output c f) :
    ((compile file output).run fs.files).run s = (.ofExcept (.error f), s) := by
  cases h with
  | extension h => exact run_compile_of_error (run_readSource_of_extension h)
  | read hextension h => exact run_compile_of_error (run_readSource_of_unreadable hextension h)
  | @text bytes hextension hread h =>
    refine run_compile_of_error ?_
    have hnone : String.fromUTF8? bytes = none := Option.eq_none_iff_forall_ne_some.2
      fun source hsource ↦ h source (toUTF8_of_fromUTF8? hsource)
    rw [run_readSource_of_bytes hextension hread, hnone]
  | size hextension hread h =>
    refine run_compile_of_error ?_
    rw [run_readSource_of_bytes hextension hread, fromUTF8?_toUTF8]
    exact congrArg (·, s) (if_pos h)
  | lex hsource h =>
    exact hsource.run_compile_of_refused (compileSource_eq_error_iff.2 (.inl ⟨_, h, rfl⟩))
  | parse hsource htokens h =>
    exact hsource.run_compile_of_refused
      (compileSource_eq_error_iff.2 (.inr (.inl ⟨_, _, htokens, h, rfl⟩)))
  | semantic hsource hprogram h =>
    exact hsource.run_compile_of_refused
      (compileSource_eq_error_iff.2 (.inr (.inr ⟨_, _, hprogram, h, rfl⟩)))
  | write hsource hjava h => exact hsource.run_compile_of_unwritable hjava h

/-! ## Every check is passed, or one is the first that is not -/

theorem hasSource_or_firstFailure (fs : FileSystem σ) (s : σ) (file output : String) :
    (∃ source, HasSource fs s file source) ∨ ∃ c f, FirstFailure fs s file output c f := by
  by_cases hextension : extension? file ≠ some "sv"
  · exact .inr ⟨_, _, .extension hextension⟩
  rw [not_not] at hextension
  match hread : fs.read s file with
  | .error e => exact .inr ⟨_, _, .read hextension hread⟩
  | .ok bytes =>
    match htext : String.fromUTF8? bytes with
    | none =>
      refine .inr ⟨_, _, .text hextension hread fun source hsource ↦ ?_⟩
      rw [← hsource, fromUTF8?_toUTF8] at htext
      cases htext
    | some source =>
      rw [← toUTF8_of_fromUTF8? htext] at hread
      by_cases hsize : source.utf8ByteSize ≤ 1000000
      · exact .inl ⟨source, hextension, hread, hsize⟩
      · exact .inr ⟨_, _, .size hextension hread (Nat.lt_of_not_le hsize)⟩

theorem passes_or_firstFailure (fs : FileSystem σ) (s : σ) (file output : String) :
    (∃ source java, Passes fs s file output source java) ∨
      ∃ c f, FirstFailure fs s file output c f := by
  rcases (hasSource_or_firstFailure fs s file output).symm with hfailure | ⟨source, hsource⟩
  · exact .inr hfailure
  match hjava : compileSource source with
  | .error e =>
    obtain ⟨e', h, -⟩ | ⟨ts, e', htokens, h, -⟩ | ⟨p, e', hprogram, h, -⟩ :=
      compileSource_eq_error_iff.1 hjava
    · exact .inr ⟨_, _, .lex hsource h⟩
    · exact .inr ⟨_, _, .parse hsource htokens h⟩
    · exact .inr ⟨_, _, .semantic hsource hprogram h⟩
  | .ok java =>
    match hwrite : fs.write s output java with
    | .error e => exact .inr ⟨_, _, .write hsource hjava hwrite⟩
    | .ok next => exact .inl ⟨source, java, hsource, hjava, next, hwrite⟩

/-! ## The words of a message -/

theorem Check.eq_of_words_isPrefix {c c' : Check} (h : c.words.toList <+: c'.words.toList) :
    c = c' := by
  revert h
  cases c <;> cases c' <;> decide

/-- The words of no two checks start the same message. -/
theorem Check.isNamedBy_of_isPrefix {c : Check} {message : String}
    (h : c.words.toList <+: message.toList) : c.IsNamedBy message := by
  refine fun c' ↦ ⟨fun h' ↦ ?_, fun heq ↦ heq ▸ h⟩
  rcases List.prefix_or_prefix_of_prefix h h' with hwords | hwords
  · exact (eq_of_words_isPrefix hwords).symm
  · exact eq_of_words_isPrefix hwords

theorem FirstFailure.isNamedBy {c : Check} {f : Failure} (h : FirstFailure fs s file output c f) :
    c.IsNamedBy f.message := by
  refine Check.isNamedBy_of_isPrefix ?_
  -- The equations of `message` take long to derive, so it is opened as it stands.
  delta Failure.message
  cases h <;>
    simp only [CompileError.report, CompileError.stage, String.toList_append, List.append_assoc] <;>
    exact List.IsPrefix.trans (by decide) (List.prefix_append _ _)

/-- There is one first check that is not passed, and one message about it: a run has one outcome,
and the message names the check. -/
theorem FirstFailure.unique {c c' : Check} {f f' : Failure}
    (h : FirstFailure fs s file output c f) (h' : FirstFailure fs s file output c' f') :
    c = c' ∧ f.message = f'.message := by
  have houtcome : Outcome.ofExcept (.error f) = .ofExcept (.error f') :=
    congrArg Prod.fst (h.run_compile.symm.trans h'.run_compile)
  have hmessage : f.message = f'.message := by
    simpa [Outcome.ofExcept] using houtcome
  have hwords : c'.words.toList <+: f.message.toList := by
    rw [hmessage]
    exact (h'.isNamedBy c').2 rfl
  exact ⟨((h.isNamedBy c').1 hwords).symm, hmessage⟩

/-! ## All or nothing -/

/-- On every system of files and from every state of it, compiling a file to an output is all or
nothing, and so is every command line that asks for it. -/
theorem allOrNothing_compile (fs : FileSystem σ) (s : σ) (file output : String) :
    AllOrNothing fs s file output (((compile file output).run fs.files).run s) ∧
      ∀ arguments, ofCommandLine arguments = .ok (compile file output) →
        AllOrNothing fs s file output ((runCommandLine fs.files arguments).run s) := by
  have hcases := passes_or_firstFailure fs s file output
  have h : AllOrNothing fs s file output (((compile file output).run fs.files).run s) := by
    refine ⟨⟨fun hzero ↦ ?_, fun ⟨source, java, hpasses⟩ ↦ ?_⟩, fun source java hpasses ↦ ?_,
      fun hfails ↦ ?_⟩
    · refine hcases.resolve_right fun ⟨c, f, hfailure⟩ ↦ ?_
      rw [hfailure.run_compile] at hzero
      simp [Outcome.ofExcept] at hzero
    · obtain ⟨next, -, hrun⟩ := hpasses.run_compile
      rw [hrun]
    · obtain ⟨next, hwrite, hrun⟩ := hpasses.run_compile
      rw [hrun]
      exact ⟨rfl, fs.written_of_write hwrite⟩
    · obtain ⟨c, f, hfailure⟩ := hcases.resolve_left hfails
      exact ⟨c, f, hfailure, hfailure.isNamedBy, hfailure.run_compile⟩
  refine ⟨h, fun arguments harguments ↦ ?_⟩
  rw [runCommandLine, harguments]
  exact h

/-- A tree with a source and with what an earlier run has written. -/
def earlierOutput : Disk :=
  ⟨((∅ : Std.ExtTreeMap String Entry).insert "out" (.file "old".toUTF8)).insert "a.sv"
    (.file "sv x = 1;".toUTF8)⟩

theorem pathNames_source : pathNames "a.sv" = ["a.sv"] := by
  rw [pathNames, String.splitOn, if_neg (by decide)]
  simp +decide [String.splitOnAux]

theorem pathNames_output : pathNames "out" = ["out"] := by
  rw [pathNames, String.splitOn, if_neg (by decide)]
  simp +decide [String.splitOnAux]

theorem ofCommandLine_compile :
    ofCommandLine ["compile", "a.sv", "-o", "out"] = .ok (compile "a.sv" "out") := by
  have hsource : Arguments.isOption "a.sv" = false := by decide +kernel
  have houtput : Arguments.isOption "out" = false := by decide +kernel
  simp [ofCommandLine, Arguments.read, Arguments.withFile, Arguments.withOutput, Arguments.path,
    hsource, houtput]
  rfl

theorem read_earlierOutput : earlierOutput.read "a.sv" = .ok "sv x = 1;".toUTF8 := by
  have hfollow : earlierOutput.follow [] (pathNames "a.sv") = .ok ["a.sv"] := by
    rw [pathNames_source]
    rfl
  have hentry : earlierOutput.entry? ["a.sv"] = some (.file "sv x = 1;".toUTF8) := by
    rw [Disk.entry?_singleton, earlierOutput, Std.ExtTreeMap.getElem?_insert_self]
  have hend : "a.sv".endsWith "/" = false := by decide +kernel
  simp [Disk.read, bind, Except.bind, hfollow, hentry, hend, pure, Except.pure]

theorem hasSource_earlierOutput :
    HasSource Disk.fileSystem earlierOutput "a.sv" "sv x = 1;" :=
  ⟨by rw [extension?, fileName?, pathNames_source]; decide, read_earlierOutput, by decide⟩

theorem exists_write_earlierOutput (java : String) :
    ∃ next, earlierOutput.write "out" java = .ok next := by
  have hfollow : earlierOutput.follow [] (pathNames "out") = .ok ["out"] := by
    rw [pathNames_output]
    rfl
  have hentry : earlierOutput.entry? ["out"] = some (.file "old".toUTF8) := by
    rw [Disk.entry?_singleton, earlierOutput, Std.ExtTreeMap.getElem?_insert,
      if_neg (by decide), Std.ExtTreeMap.getElem?_insert_self]
  have hend : "out".endsWith "/" = false := by decide +kernel
  simp [Disk.write, bind, Except.bind, hfollow, hentry, hend, pure, Except.pure]

/-- What an earlier run has written is replaced. -/
theorem allOrNothing_compile_earlierOutput :
    ∃ java, Passes Disk.fileSystem earlierOutput "a.sv" "out" "sv x = 1;" java ∧
      AllOrNothing Disk.fileSystem earlierOutput "a.sv" "out"
        ((runCommandLine Disk.files ["compile", "a.sv", "-o", "out"]).run earlierOutput) := by
  have hjava : compileSource "sv x = 1;" =
      .ok (Java.mainClass [⟨.int, "x", some (.int 1)⟩]) := eq_ok_of_toOption (by decide +kernel)
  refine ⟨_, ⟨hasSource_earlierOutput, hjava, exists_write_earlierOutput _⟩, ?_⟩
  rw [← Disk.files_fileSystem]
  exact (allOrNothing_compile Disk.fileSystem earlierOutput "a.sv" "out").2 _ ofCommandLine_compile

end Command

end SvLang
