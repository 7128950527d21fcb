import SvLang.Proofs.Analysis.Checks

/-!
# What a failed analysis leaves behind

An analysis that fails stops at one statement.  Up to there it has done what it does to the
statements in front of it alone; the statement itself is at most partly folded and declares nothing;
and what follows is as it was.  `Program.existsUnique_failing` says so, and that the error is the
one of the first check that the statement fails.
-/

set_option autoImplicit false

namespace SvLang

/-! ## Where a run goes on, and where it stops -/

/-- Behind a run without error the loop goes on with what is left. -/
theorem Analyzes.analyzeFrom_append {t u : SymbolTable} {ss ss' : List Stmt}
    (h : Analyzes t ss u ss') (done rest : List Stmt) :
    analyzeFrom t done (ss ++ rest) = analyzeFrom u (ss'.reverse ++ done) rest := by
  induction h generalizing done with
  | nil => rfl
  | cons s hs _ ih =>
    rw [List.cons_append, analyzeFrom]
    simp only [hs, ih, List.reverse_cons, List.append_assoc, List.singleton_append]

/-- Two runs, the second of which starts behind the first. -/
theorem Analyzes.append {t u v : SymbolTable} {ss ss' rs rs' : List Stmt} (h : Analyzes t ss u ss')
    (hrest : Analyzes u rs v rs') : Analyzes t (ss ++ rs) v (ss' ++ rs') := by
  induction h with
  | nil => exact hrest
  | cons s hs _ ih => exact .cons s hs (ih hrest)

/-- A run through two lists is a run through the first and one behind it. -/
theorem Analyzes.of_append {t v : SymbolTable} {ss rs out : List Stmt}
    (h : Analyzes t (ss ++ rs) v out) :
    ∃ u ss' rs', out = ss' ++ rs' ∧ Analyzes t ss u ss' ∧ Analyzes u rs v rs' := by
  induction ss generalizing t out with
  | nil => exact ⟨t, [], out, rfl, .nil t, h⟩
  | cons s ss ih =>
    cases h with
    | cons _ hs hrest =>
      obtain ⟨u, ss', rs', rfl, hss, hrs⟩ := ih hrest
      exact ⟨u, _ :: ss', rs', rfl, .cons s hs hss, hrs⟩

/-- A run only folds expressions. -/
theorem Analyzes.partlyFolded {t u : SymbolTable} {ss ss' : List Stmt} (h : Analyzes t ss u ss') :
    List.Forall₂ Stmt.PartlyFolded ss ss' := by
  induction h with
  | nil => exact .nil
  | cons s _ _ ih => exact .cons (s.partlyFolded_analyze _) ih

/-- A run keeps the number of statements. -/
theorem Analyzes.length_value {t u : SymbolTable} {ss ss' : List Stmt} (h : Analyzes t ss u ss') :
    ss'.length = ss.length :=
  h.partlyFolded.length_eq.symm

/-- At a statement that fails, the loop stops. -/
theorem analyzeFrom_of_error {u : SymbolTable} {s : Stmt} {e : SemanticError}
    (h : (s.analyze u).error? = some e) (done rest : List Stmt) :
    analyzeFrom u done (s :: rest) = ⟨done.reverse ++ (s.analyze u).value :: rest, u, some e⟩ := by
  rw [analyzeFrom]
  simp only [h, Stmt.symbols_of_error h]

/-- A loop that fails has come to a statement that fails. -/
theorem exists_failing {t : SymbolTable} {done ss : List Stmt} {e : SemanticError}
    (h : (analyzeFrom t done ss).error? = some e) :
    ∃ before s after u before', ss = before ++ s :: after ∧ Analyzes t before u before' ∧
      (s.analyze u).error? = some e := by
  induction ss generalizing t done with
  | nil => cases h
  | cons s ss ih =>
    rw [analyzeFrom] at h
    cases hs : (s.analyze t).error? with
    | some err =>
      rw [hs] at h
      cases h
      exact ⟨[], s, ss, t, [], rfl, .nil t, hs⟩
    | none =>
      rw [hs] at h
      obtain ⟨before, s', after, u, before', rfl, hrun, hs'⟩ := ih h
      exact ⟨s :: before, s', after, u, _, rfl, .cons s hs hrun, hs'⟩

/-- A list of statements has at most one that fails behind a run through all in front of it. -/
theorem Analyzes.length_eq {t u v : SymbolTable} {ss ss' rs rs' after after' : List Stmt}
    {s r : Stmt} (hss : Analyzes t ss u ss') (hrs : Analyzes t rs v rs')
    (hs : (s.analyze u).error? ≠ none) (hr : (r.analyze v).error? ≠ none)
    (h : ss ++ s :: after = rs ++ r :: after') : ss.length = rs.length := by
  induction hss generalizing rs rs' with
  | nil =>
    cases hrs with
    | nil => rfl
    | cons s' hs' _ =>
      obtain rfl := (List.cons.inj h).1
      exact absurd hs' hs
  | cons s' hs' _ ih =>
    cases hrs with
    | nil =>
      obtain rfl := (List.cons.inj h).1
      exact absurd hs' hr
    | cons r' _ hrs =>
      obtain ⟨rfl, hrest⟩ := List.cons.inj h
      rw [List.length_cons, List.length_cons, ih hrs hs hrest]

/-! ## Programs -/

namespace Program

/-- A program is analyzed without error if and only if there is a run through its statements. -/
theorem analyze_eq_iff {t u : SymbolTable} {ss ss' : List Stmt} :
    (⟨ss⟩ : Program).analyze t = ⟨⟨ss'⟩, u, none⟩ ↔ Analyzes t ss u ss' := by
  have hrun : analyzeFrom t [] ss = ⟨ss', u, none⟩ ↔ Analyzes t ss u ss' := by
    rw [analyzeFrom_eq_iff]
    simp
  rw [← hrun, analyze]
  cases analyzeFrom t [] ss
  simp

/-- What is left of a program that fails at a statement. -/
theorem analyze_of_error {t u : SymbolTable} {before before' : List Stmt} {s : Stmt}
    {e : SemanticError} (hrun : Analyzes t before u before') (hs : (s.analyze u).error? = some e)
    (after : List Stmt) :
    (⟨before ++ s :: after⟩ : Program).analyze t =
      ⟨⟨before' ++ (s.analyze u).value :: after⟩, u, some e⟩ := by
  rw [analyze, hrun.analyzeFrom_append, analyzeFrom_of_error hs]
  simp

/-- **What a failed analysis leaves behind.**  There is exactly one statement such that:
* alone, the statements in front of it are analyzed without error;
* behind their declarations, the statement alone fails with the error of the whole;
* the analysis of the whole has declared what they declare and nothing else, has rewritten them and
  the statement as these two analyses do, and has left alone what follows.

The statement is at most partly folded, and the error is the one of the first check that fails: of
its name, then of its initializer, then of its expressions from left to right, then of what it
returns. -/
theorem existsUnique_failing {t : SymbolTable} {p : Program} {e : SemanticError}
    (h : (p.analyze t).error? = some e) :
    ∃! k, ∃ u before s s', p.body[k]? = some s ∧
      (⟨p.body.take k⟩ : Program).analyze t = ⟨⟨before⟩, u, none⟩ ∧
      (⟨[s]⟩ : Program).analyze u = ⟨⟨[s']⟩, u, some e⟩ ∧
      p.analyze t = ⟨⟨before ++ s' :: p.body.drop (k + 1)⟩, u, some e⟩ ∧
      s.PartlyFolded s' ∧ s.firstError? u = some e := by
  obtain ⟨before, s, after, u, before', hbody, hrun, hs⟩ := exists_failing h
  have hk : p.body[before.length]? = some s := by rw [hbody]; simp
  have htake : p.body.take before.length = before := by rw [hbody]; simp
  have hdrop : p.body.drop (before.length + 1) = after := by rw [hbody]; simp
  refine ⟨before.length, ⟨u, before', s, (s.analyze u).value, hk, ?_, ?_, ?_,
    s.partlyFolded_analyze u, s.error?_analyze u ▸ hs⟩, ?_⟩
  · rw [htake]
    exact analyze_eq_iff.2 hrun
  · exact analyze_of_error (.nil u) hs []
  · have hp : p = ⟨before ++ s :: after⟩ := by rw [← hbody]
    rw [hdrop, hp]
    exact analyze_of_error hrun hs after
  · rintro k ⟨v, rs, r, r', hrk, hrs, hr, -⟩
    have hfails : (r.analyze v).error? ≠ none := by
      intro hnone
      have hone := analyze_eq_iff.2 (.cons r hnone (.nil _))
      exact absurd (congrArg Analyzed.error? (hr.symm.trans hone)) nofun
    obtain ⟨hlt, hget⟩ := List.getElem?_eq_some_iff.1 hrk
    have hsplit : before ++ s :: after = p.body.take k ++ r :: p.body.drop (k + 1) := by
      rw [← hbody, ← hget, ← List.drop_eq_getElem_cons hlt, List.take_append_drop]
    have hlength := hrun.length_eq (analyze_eq_iff.1 hrs) (by simp [hs]) hfails hsplit
    rw [hlength, List.length_take, Nat.min_eq_left (Nat.le_of_lt hlt)]

/-- An array whose second element cannot be folded, between two other declarations. -/
theorem existsUnique_failing_array :
    ∃ p : Program, (p.analyze .empty).error? = some (.notANumber "'y'" .add) ∧
      ∃! k, ∃ u before s s', p.body[k]? = some s ∧
        (⟨p.body.take k⟩ : Program).analyze .empty = ⟨⟨before⟩, u, none⟩ ∧
        (⟨[s]⟩ : Program).analyze u = ⟨⟨[s']⟩, u, some (.notANumber "'y'" .add)⟩ ∧
        p.analyze .empty =
          ⟨⟨before ++ s' :: p.body.drop (k + 1)⟩, u, some (.notANumber "'y'" .add)⟩ ∧
        s.PartlyFolded s' ∧ s.firstError? u = some (.notANumber "'y'" .add) := by
  have hfails : ((⟨[.variable ⟨"x", none⟩ none (some (.number .numeric 1)),
      .array ⟨"a", none⟩ none
        [.binary (.number .numeric 1) (.arithmetic .add) (.number .numeric 2),
          .binary (.number .numeric 1) (.arithmetic .add) (.identifier ⟨"y", none⟩)],
      .variable ⟨"x", none⟩ none none]⟩ : Program).analyze .empty).error? =
        some (.notANumber "'y'" .add) := by
    decide +kernel
  exact ⟨_, hfails, existsUnique_failing hfails⟩

end Program

end SvLang
