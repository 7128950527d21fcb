import SvLang.Analysis

/-!
# What an analysis without error does

`Analyzes t ss u ss'` says that the statements `ss` are analyzed one after another behind the
declarations of `t`, without an error; they are rewritten to `ss'`, and `u` are the declarations
behind them.  `Program.analyzes` is how an accepted program gives rise to such a run.

Folding is looked at as far as its outcome goes: `Expr.fold_cases` lists the forms that are left.
-/

set_option autoImplicit false

namespace SvLang

/-! ## Folding -/

namespace Rewritten

variable {α β : Type} {r : Rewritten α} {orElse : α → β} {next : α → Rewritten β}

/-- What goes on to the end went on from an end. -/
theorem of_andThen (h : (r.andThen orElse next).error? = none) :
    r.error? = none ∧ r.andThen orElse next = next r.value := by
  rw [andThen] at h ⊢
  cases hr : r.error? with
  | none => exact ⟨rfl, rfl⟩
  | some e =>
    rw [hr] at h
    cases h

end Rewritten

namespace Expr

/-- Arithmetic that is put between two operands without error gives a number. -/
theorem combine_arithmetic {left right : Expr} {op : ArithmeticOp}
    (h : (combine left (.arithmetic op) right).error? = none) :
    ∃ w x, (combine left (.arithmetic op) right).value = number w x := by
  rw [combine] at h ⊢
  cases he : evaluate left op right with
  | error e =>
    rw [he] at h
    cases h
  | ok e =>
    rw [evaluate.eq_def] at he
    split at he <;> cases he
    exact ⟨_, _, rfl⟩

/-- A folded expression is what it was, if that was no operation; or it is a number, or an operation
that is no arithmetic. -/
theorem fold_cases {e : Expr} (h : e.fold.error? = none) :
    ((∀ l op r, e ≠ binary l op r) ∧ e.fold.value = e) ∨ (∃ w x, e.fold.value = number w x) ∨
      ∃ l op r, e.fold.value = binary l op r ∧ ∀ a, op ≠ .arithmetic a := by
  cases e with
  | binary left op right =>
    rw [fold] at h ⊢
    obtain ⟨-, hleft⟩ := Rewritten.of_andThen h
    rw [hleft] at h ⊢
    obtain ⟨-, hright⟩ := Rewritten.of_andThen h
    rw [hright] at h ⊢
    cases op with
    | arithmetic op => exact .inr (.inl (combine_arithmetic h))
    | assignment op | step op | comparison op => exact .inr (.inr ⟨_, _, _, rfl, nofun⟩)
  | _ => exact .inl ⟨nofun, rfl⟩

end Expr

/-! ## One statement -/

namespace Stmt

/-- A variable that is declared without error has an initializer, which has been folded. -/
theorem analyze_variable {t : SymbolTable} {id : Identifier} {type? : Option TypeName}
    {initializer? : Option Expr}
    (h : ((Stmt.variable id type? initializer?).analyze t).error? = none) :
    ∃ e, initializer? = some e ∧ e.fold.error? = none ∧
      ((Stmt.variable id type? initializer?).analyze t).value =
        .variable id type? (some e.fold.value) := by
  rw [analyze, analyzeVariable.eq_def] at h ⊢
  split at h
  · cases h
  · rename_i hfresh
    rw [if_neg hfresh]
    cases initializer? with
    | none => cases h
    | some e =>
      refine ⟨e, rfl, ?_⟩
      simp only [Rewritten.declaring] at h ⊢
      cases he : e.fold.error? with
      | none => exact ⟨rfl, rfl⟩
      | some err =>
        rw [he] at h
        cases h

/-- A statement is rewritten to a declaration of a variable only if it was one. -/
theorem eq_variable_of_analyze {t : SymbolTable} {s : Stmt} {id : Identifier}
    {type? : Option TypeName} {initializer? : Option Expr}
    (h : (s.analyze t).value = .variable id type? initializer?) :
    ∃ initializer?, s = .variable id type? initializer? := by
  cases s with
  | «variable» id' type'? initializer'? =>
    refine ⟨initializer'?, ?_⟩
    rw [analyze, analyzeVariable.eq_def] at h
    split at h
    · cases h
      rfl
    · cases initializer'? with
      | none =>
        cases h
        rfl
      | some e =>
        simp only [Rewritten.declaring] at h
        split at h <;> cases h <;> rfl
  | array id' type'? elements =>
    rw [analyze, analyzeArray] at h
    split at h
    · cases h
    · simp only [Rewritten.declaring] at h
      split at h <;> cases h
  | expr e =>
    rw [analyze.eq_def] at h
    split at h <;> simp_all
  | _ => cases h

/-- What a variable is set to by a statement that has been analyzed without error: something, and no
arithmetic. -/
theorem initializer_of_analyze {t : SymbolTable} {s : Stmt} {id : Identifier}
    {type? : Option TypeName} {initializer? : Option Expr} (herror : (s.analyze t).error? = none)
    (h : (s.analyze t).value = .variable id type? initializer?) :
    ∃ e, initializer? = some e ∧ ∀ l op r, e ≠ .binary l (.arithmetic op) r := by
  obtain ⟨initializer?, rfl⟩ := eq_variable_of_analyze h
  obtain ⟨e, rfl, hfold, hanalyzed⟩ := analyze_variable herror
  rw [hanalyzed] at h
  cases h
  refine ⟨_, rfl, fun l op r he ↦ ?_⟩
  rcases Expr.fold_cases hfold with ⟨hne, hvalue⟩ | ⟨w, x, hvalue⟩ | ⟨l', op', r', hvalue, hop⟩
  · rw [hvalue] at he
    exact hne _ _ _ he
  · rw [hvalue] at he
    cases he
  · rw [hvalue] at he
    cases he
    exact hop op rfl

end Stmt

/-! ## A run -/

/-- The statements are analyzed without error, one behind the other: from the declarations before
the first to those behind the last, with what they are rewritten to. -/
inductive Analyzes : SymbolTable → List Stmt → SymbolTable → List Stmt → Prop where
  | nil (t : SymbolTable) : Analyzes t [] t []
  | cons {t u : SymbolTable} {ss ss' : List Stmt} (s : Stmt) (hs : (s.analyze t).error? = none)
      (hss : Analyzes (s.analyze t).symbols ss u ss') :
      Analyzes t (s :: ss) u ((s.analyze t).value :: ss')

/-- The loop over the statements of a program is such a run. -/
theorem analyzeFrom_eq_iff {t u : SymbolTable} {done ss out : List Stmt} :
    analyzeFrom t done ss = ⟨out, u, none⟩ ↔
      ∃ ss', out = done.reverse ++ ss' ∧ Analyzes t ss u ss' := by
  induction ss generalizing t done with
  | nil =>
    rw [analyzeFrom]
    constructor
    · rintro ⟨⟩
      exact ⟨[], by rw [List.append_nil], .nil _⟩
    · rintro ⟨ss', rfl, ⟨⟩⟩
      rw [List.append_nil]
  | cons s ss ih =>
    rw [analyzeFrom]
    cases hs : (s.analyze t).error? with
    | none =>
      simp only [ih, List.reverse_cons, List.append_assoc, List.singleton_append]
      constructor
      · rintro ⟨ss', rfl, hss⟩
        exact ⟨_ :: ss', rfl, .cons s hs hss⟩
      · rintro ⟨_, rfl, ⟨⟩⟩
        exact ⟨_, rfl, by assumption⟩
    | some e =>
      constructor
      · rintro ⟨⟩
      · rintro ⟨_, rfl, ⟨⟩⟩
        simp_all

theorem Program.analyzes {p : Program} {t : SymbolTable} (h : (p.analyze t).error? = none) :
    Analyzes t p.body (p.analyze t).symbols (p.analyze t).value.body := by
  have hrun : analyzeFrom t [] p.body =
      ⟨(p.analyze t).value.body, (p.analyze t).symbols, (p.analyze t).error?⟩ := rfl
  rw [h, analyzeFrom_eq_iff] at hrun
  obtain ⟨ss', hbody, hrun⟩ := hrun
  rw [hbody]
  exact hrun

/-- Each statement that a run leaves behind is what one of the program is rewritten to. -/
theorem Analyzes.exists_of_mem {t u : SymbolTable} {ss ss' : List Stmt} (h : Analyzes t ss u ss')
    {s' : Stmt} (hs' : s' ∈ ss') :
    ∃ s ∈ ss, ∃ t, (s.analyze t).error? = none ∧ (s.analyze t).value = s' := by
  induction h with
  | nil => cases hs'
  | cons s hs _ ih =>
    rcases List.mem_cons.1 hs' with rfl | hmem
    · exact ⟨s, List.mem_cons_self, _, hs, rfl⟩
    · obtain ⟨s, hmem, hanalyzed⟩ := ih hmem
      exact ⟨s, List.mem_cons_of_mem _ hmem, hanalyzed⟩

end SvLang
