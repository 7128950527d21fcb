import SvLang.Proofs.Analysis.Acceptance

/-!
# Sessions

In a session, programs are analyzed one after another and share one table of names.  An analysis
that fails does not end the session: what it has declared stays declared, and the next program is
analyzed behind that.

A failed analysis stops between two statements as far as the table goes, because the statement that
fails declares nothing.  So each analysis of a session, failed or not, is a run through the
statements that *survive* it, and these runs fit together to a single one.  `session_survivors` says
so: a session has done what one analysis of all survivors does.  What it says of the table is then
read off that one run: no name is ever lost, changes its type, or is declared again.

## What is here

* `Call`: a program of a session with the table that it is analyzed behind; `calls` are those of a
  whole session, and `symbolsAfter` is the table at its end.
* `surviving`: the statements in front of the first one that fails.  `Call.remains` are what the
  analysis leaves in their place.
* `Call.analyzes` for one call, `analyzes_calls` for a session.
-/

set_option autoImplicit false

namespace SvLang

/-! ## Calls -/

/-- A program of a session, and the names that are declared when its turn comes. -/
structure Call where
  symbols : SymbolTable
  program : Program

/-- The calls of a session that starts behind the declarations of `t`. -/
def calls (t : SymbolTable) : List Program → List Call
  | [] => []
  | p :: ps => ⟨t, p⟩ :: calls (p.analyze t).symbols ps

/-- The names that are declared when a session has come to its end. -/
def symbolsAfter (t : SymbolTable) (ps : List Program) : SymbolTable :=
  ps.foldl (fun u p ↦ (p.analyze u).symbols) t

/-- The statements in front of the first one that fails, and all of them if none does. -/
def surviving (t : SymbolTable) : List Stmt → List Stmt
  | [] => []
  | s :: ss =>
    match (s.analyze t).error? with
    | none => s :: surviving (s.analyze t).symbols ss
    | some _ => []

namespace Call

/-- What comes of the call. -/
def outcome (c : Call) : Analyzed Program := c.program.analyze c.symbols

/-- The statements in front of the one at which the call fails, and all of them if it does not. -/
def survivors (c : Call) : List Stmt := surviving c.symbols c.program.body

/-- What the call leaves in the place of its survivors. -/
def remains (c : Call) : List Stmt := c.outcome.value.body.take c.survivors.length

end Call

theorem symbolsAfter_append (t : SymbolTable) (ps rs : List Program) :
    symbolsAfter t (ps ++ rs) = symbolsAfter (symbolsAfter t ps) rs :=
  List.foldl_append

/-! ## What survives -/

/-- All statements of a run survive, and so does what survives behind it. -/
theorem Analyzes.surviving_append {t u : SymbolTable} {ss ss' : List Stmt}
    (h : Analyzes t ss u ss') (rest : List Stmt) :
    surviving t (ss ++ rest) = ss ++ surviving u rest := by
  induction h with
  | nil => rfl
  | cons s hs _ ih =>
    rw [List.cons_append, surviving]
    simp only [hs, ih, List.cons_append]

/-- A statement that fails does not survive. -/
theorem surviving_of_error {u : SymbolTable} {s : Stmt} {e : SemanticError}
    (h : (s.analyze u).error? = some e) (rest : List Stmt) : surviving u (s :: rest) = [] := by
  rw [surviving]
  simp only [h]

namespace Call

/-- All statements of a program that is accepted survive. -/
theorem survivors_of_accepted {c : Call} (h : c.outcome.error? = none) :
    c.survivors = c.program.body := by
  have hall := (Program.analyzes h).surviving_append []
  rw [List.append_nil, surviving, List.append_nil] at hall
  exact hall

/-- The statements that survive a failure are a run up to the statement that fails, and what is left
of a program starts with what they are rewritten to. -/
theorem exists_of_error {c : Call} {e : SemanticError} (h : c.outcome.error? = some e) :
    ∃ s after before', c.program.body = c.survivors ++ s :: after ∧
      Analyzes c.symbols c.survivors c.outcome.symbols before' ∧
      (s.analyze c.outcome.symbols).error? = some e ∧
      c.outcome.value.body = before' ++ (s.analyze c.outcome.symbols).value :: after := by
  obtain ⟨before, s, after, u, before', hbody, hrun, hs⟩ := exists_failing h
  have hsurvivors : c.survivors = before := by
    rw [survivors, hbody, hrun.surviving_append, surviving_of_error hs, List.append_nil]
  have houtcome : c.outcome = ⟨⟨before' ++ (s.analyze u).value :: after⟩, u, some e⟩ := by
    have hp : c.program = ⟨before ++ s :: after⟩ := by rw [← hbody]
    rw [outcome, hp]
    exact Program.analyze_of_error hrun hs after
  rw [hsurvivors, houtcome]
  exact ⟨s, after, before', hbody, hrun, hs, rfl⟩

/-- **A call is a run through its survivors**, whether it fails or not. -/
theorem analyzes (c : Call) : Analyzes c.symbols c.survivors c.outcome.symbols c.remains := by
  cases h : c.outcome.error? with
  | none =>
    have hrun := Program.analyzes h
    have hremains : c.remains = c.outcome.value.body := by
      rw [remains, survivors_of_accepted h]
      exact List.take_of_length_le (Nat.le_of_eq hrun.length_value)
    rw [hremains, survivors_of_accepted h]
    exact hrun
  | some e =>
    obtain ⟨s, after, before', -, hrun, -, hbody⟩ := exists_of_error h
    have hremains : c.remains = before' := by
      rw [remains, hbody, ← hrun.length_value, List.take_left]
    rw [hremains]
    exact hrun

end Call

/-! ## Sessions as one run -/

/-- **A session is a run through all survivors.** -/
theorem analyzes_calls (t : SymbolTable) (ps : List Program) :
    Analyzes t ((calls t ps).flatMap Call.survivors) (symbolsAfter t ps)
      ((calls t ps).flatMap Call.remains) := by
  induction ps generalizing t with
  | nil => exact .nil t
  | cons p ps ih =>
    rw [calls, List.flatMap_cons, List.flatMap_cons]
    exact (Call.analyzes ⟨t, p⟩).append (ih (p.analyze t).symbols)

/-- What is declared in front of a run keeps its type behind it. -/
theorem Analyzes.type?_of_type? {t u : SymbolTable} {ss ss' : List Stmt}
    (h : Analyzes t ss u ss') {x : String} {type : ValueType} (hx : t.type? x = some type) :
    u.type? x = some type := by
  have hnew : x ∉ declaredNames ss := by
    intro hmem
    rw [(exists_analyzes_iff.1 ⟨u, ss', h⟩).fresh x hmem] at hx
    cases hx
  rw [h.records.kept x hnew, hx]

/-- A program that declares a name which is already there is refused. -/
theorem Program.error?_ne_none_of_declared {t : SymbolTable} {p : Program} {x : String}
    (hx : x ∈ declaredNames p.body) (ht : t.contains x) : (p.analyze t).error? ≠ none := by
  intro h
  have hfresh := (exists_analyzes_iff.1 ⟨_, _, analyzes h⟩).fresh x hx
  rw [SymbolTable.contains_eq, hfresh] at ht
  cases ht

/-- **A session does what one analysis of its survivors does.**  Let programs be analyzed one after
another, whether or not some of them fail.

* A program that is accepted survives as a whole.  If it fails, what survives are the statements in
  front of one that fails, alone and behind the names then declared, with the error of the program.
* One analysis of all survivors is accepted.  It declares the names that the session has declared,
  with the same types, and rewrites each statement to what the session has left in its place.
* Later programs do not change the type of a name that has been declared.
* No later program that declares such a name again is accepted. -/
theorem session_survivors (t : SymbolTable) (ps later : List Program) :
    (∀ c ∈ calls t ps,
      (c.outcome.error? = none → c.survivors = c.program.body) ∧
      ∀ e, c.outcome.error? = some e → ∃ s after, c.program.body = c.survivors ++ s :: after ∧
        (s.analyze c.outcome.symbols).error? = some e) ∧
    (⟨(calls t ps).flatMap Call.survivors⟩ : Program).analyze t =
      ⟨⟨(calls t ps).flatMap Call.remains⟩, symbolsAfter t ps, none⟩ ∧
    (∀ x type, (symbolsAfter t ps).type? x = some type →
      (symbolsAfter t (ps ++ later)).type? x = some type) ∧
    ∀ x (p : Program), (symbolsAfter t ps).contains x → x ∈ declaredNames p.body →
      (p.analyze (symbolsAfter t (ps ++ later))).error? ≠ none := by
  have hkept : ∀ x type, (symbolsAfter t ps).type? x = some type →
      (symbolsAfter t (ps ++ later)).type? x = some type := by
    intro x type hx
    rw [symbolsAfter_append]
    exact (analyzes_calls _ later).type?_of_type? hx
  refine ⟨fun c _ ↦ ⟨Call.survivors_of_accepted, fun e he ↦ ?_⟩,
    Program.analyze_eq_iff.2 (analyzes_calls t ps), hkept, fun x p hx hp ↦ ?_⟩
  · obtain ⟨s, after, -, hbody, -, hs, -⟩ := Call.exists_of_error he
    exact ⟨s, after, hbody, hs⟩
  · rw [SymbolTable.contains_eq, Option.isSome_iff_exists] at hx
    obtain ⟨type, htype⟩ := hx
    refine Program.error?_ne_none_of_declared hp ?_
    rw [SymbolTable.contains_eq, hkept x type htype, Option.isSome_some]

/-- A session in which the second program fails at its second statement, and a fourth program that
declares what has been declared in front of that failure. -/
theorem session_survivors_failure :
    ∃ ps later : List Program, ∃ p : Program, ∃ c ∈ calls .empty ps,
      c.outcome.error? = some (.mustBeInitialized "z") ∧
      (∃ s after, c.program.body = c.survivors ++ s :: after ∧
        (s.analyze c.outcome.symbols).error? = some (.mustBeInitialized "z")) ∧
      (⟨(calls .empty ps).flatMap Call.survivors⟩ : Program).analyze .empty =
        ⟨⟨(calls .empty ps).flatMap Call.remains⟩, symbolsAfter .empty ps, none⟩ ∧
      (symbolsAfter .empty ps).type? "y" = some .text ∧
      (symbolsAfter .empty (ps ++ later)).type? "y" = some .text ∧
      (symbolsAfter .empty ps).contains "y" ∧ "y" ∈ declaredNames p.body ∧
      (p.analyze (symbolsAfter .empty (ps ++ later))).error? ≠ none := by
  let first : Program := ⟨[.variable ⟨"x", none⟩ none (some (.number .numeric 1))]⟩
  let second : Program := ⟨[.variable ⟨"y", none⟩ none (some (.text .double "a")),
    .variable ⟨"z", none⟩ none none, .variable ⟨"w", none⟩ none (some (.number .numeric 2))]⟩
  let third : Program := ⟨[.variable ⟨"z", none⟩ none (some (.identifier ⟨"x", none⟩))]⟩
  let fourth : Program := ⟨[.variable ⟨"y", none⟩ none (some (.number .numeric 3))]⟩
  obtain ⟨hcalls, hrun, hkept, hrefused⟩ := session_survivors .empty [first, second] [third]
  have hmem : (⟨(first.analyze .empty).symbols, second⟩ : Call) ∈ calls .empty [first, second] := by
    simp [calls]
  have herror : (⟨(first.analyze .empty).symbols, second⟩ : Call).outcome.error? =
      some (.mustBeInitialized "z") := by
    decide +kernel
  have htype : (symbolsAfter .empty [first, second]).type? "y" = some .text := by decide +kernel
  have hdeclared : (symbolsAfter .empty [first, second]).contains "y" := by decide +kernel
  have hy : "y" ∈ declaredNames fourth.body := by decide +kernel
  exact ⟨[first, second], [third], fourth, _, hmem, herror, (hcalls _ hmem).2 _ herror, hrun, htype,
    hkept _ _ htype, hdeclared, hy, hrefused _ _ hdeclared hy⟩

end SvLang
