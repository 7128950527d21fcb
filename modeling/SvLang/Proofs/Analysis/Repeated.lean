import SvLang.Proofs.Analysis.Failure

/-!
# Analyzing twice

What an analysis leaves behind is a fixed point of the analysis: a second one behind the same
declarations changes nothing, declares the same names and reports the same.  This holds whether or
not the first one failed, because the analysis stops *between* two steps of rewriting.  What has
been folded is passed over the second time, so that the step which failed is met again with the very
operands, and the very table, that it failed on.

The statements follow what is analyzed: an operation (`Expr.fold_combine`), an expression
(`Expr.fold_fold`), a list (`Expr.foldAll_foldAll`), a statement (`Stmt.analyze_analyze`), a run
through statements (`Analyzes.again`), and a program (`Program.analyze_twice`).
-/

set_option autoImplicit false

namespace SvLang

/-! ## Folding -/

namespace Expr

/-- An operation on operands that stay as they are is folded in one step. -/
theorem fold_binary_of_done {left right : Expr} (op : BinaryOp) (hleft : left.fold = .done left)
    (hright : right.fold = .done right) : (binary left op right).fold = combine left op right := by
  have hl : left.fold.error? = none := congrArg Rewritten.error? hleft
  have hr : right.fold.error? = none := congrArg Rewritten.error? hright
  rw [fold_binary op hl hr, hleft, hright]
  rfl

/-- What an operator makes of operands that stay as they are is not changed any more, and if the
operator fails on them, it fails on them again. -/
theorem fold_combine {left right : Expr} (op : BinaryOp) (hleft : left.fold = .done left)
    (hright : right.fold = .done right) :
    (combine left op right).value.fold = combine left op right := by
  cases op with
  | arithmetic a =>
    cases he : evaluate left a right with
    | error err =>
      have hstopped : combine left (.arithmetic a) right =
          .stopped (binary left (.arithmetic a) right) err := by
        rw [combine, he]
      rw [hstopped, Rewritten.stopped, fold_binary_of_done _ hleft hright]
      exact hstopped
    | ok e =>
      have hdone : combine left (.arithmetic a) right = .done e := by rw [combine, he]
      obtain ⟨w, x, hvalue⟩ := combine_arithmetic (congrArg Rewritten.error? hdone)
      rw [hdone] at hvalue ⊢
      obtain rfl : e = number w x := hvalue
      rfl
  | assignment | step | comparison => exact fold_binary_of_done _ hleft hright

/-- **Folding twice.**  A folded expression is not changed by folding it again, and if it could not
be folded to the end, the same error is found again. -/
theorem fold_fold (e : Expr) : e.fold.value.fold = e.fold := by
  induction e using fold.induct with
  | case1 left op right ihleft ihright =>
    rw [fold]
    cases hleft : left.fold with
    | mk l lerror? =>
      rw [hleft] at ihleft
      cases lerror? with
      | some err =>
        -- The left operand fails, and it does so again with what is left of it.
        simp only [Rewritten.andThen, Rewritten.stopped]
        rw [fold, ihleft]
        rfl
      | none =>
        cases hright : right.fold with
        | mk r rerror? =>
          rw [hright] at ihright
          cases rerror? with
          | some err =>
            simp only [Rewritten.andThen, Rewritten.stopped]
            rw [fold, ihleft, ihright]
            rfl
          | none =>
            simp only [Rewritten.andThen]
            exact fold_combine op ihleft ihright
  | case2 e he => rw [fold_of_ne he, Rewritten.done, fold_of_ne he, Rewritten.done]

/-- A list of expressions is folded once and for all. -/
theorem foldAll_foldAll (es : List Expr) : foldAll (foldAll es).value = foldAll es := by
  induction es with
  | nil => rfl
  | cons e es ih =>
    have he := e.fold_fold
    rw [foldAll]
    cases hfold : e.fold with
    | mk e' error? =>
      rw [hfold] at he
      cases error? with
      | some err =>
        simp only [Rewritten.andThen, Rewritten.stopped]
        rw [foldAll, he]
        rfl
      | none =>
        cases hall : foldAll es with
        | mk es' errors? =>
          rw [hall] at ih
          cases errors? <;>
          · simp only [Rewritten.andThen, Rewritten.stopped, Rewritten.done]
            rw [foldAll, he, ih]
            rfl

end Expr

/-! ## Statements -/

/-- A value that is checked before it is returned stays as it is. -/
theorem value_checkReturn (t : SymbolTable) (e : Expr) : (checkReturn t e).value = e := by
  rw [checkReturn]
  split <;> rfl

namespace Stmt

variable {t : SymbolTable}

/-- A variable whose initializer has been folded is analyzed as it was before. -/
theorem analyzeVariable_fold {id : Identifier} (hx : ¬ t.contains id.name)
    (type? : Option TypeName) (e : Expr) :
    analyzeVariable t id type? (some e.fold.value) = analyzeVariable t id type? (some e) := by
  rw [analyzeVariable, analyzeVariable, if_neg hx, if_neg hx, e.fold_fold]

/-- An array whose elements have been folded is analyzed as it was before. -/
theorem analyzeArray_foldAll {id : Identifier} (hx : ¬ t.contains id.name)
    (type? : Option TypeName) (elements : List Expr) :
    analyzeArray t id type? (Expr.foldAll elements).value = analyzeArray t id type? elements := by
  rw [analyzeArray, analyzeArray, if_neg hx, if_neg hx, Expr.foldAll_foldAll]

/-- An expression that is a statement and no `return` of a value is folded, of whatever form. -/
theorem analyze_expr {e : Expr} (he : ∀ value, e ≠ .ret (some value)) :
    (Stmt.expr e).analyze t = ⟨.expr e.fold.value, t, e.fold.error?⟩ := by
  cases e with
  | ret value? =>
    cases value? with
    | none => rfl
    | some value => exact absurd rfl (he value)
  | _ => rfl

/-- A value that is returned is folded, and then checked. -/
theorem analyze_ret (e : Expr) :
    (Stmt.expr (.ret (some e))).analyze t = ⟨.expr (.ret (some e.fold.value)), t,
      e.fold.error?.or (checkReturn t e.fold.value).error?⟩ := by
  rw [analyze, Rewritten.andThen]
  cases e.fold.error? with
  | some err => rfl
  | none =>
    dsimp only
    rw [value_checkReturn]
    rfl

/-- **Analyzing a statement twice.**  Behind the same declarations, a statement that has been
analyzed is analyzed with the same outcome as the first time. -/
theorem analyze_analyze (t : SymbolTable) (s : Stmt) :
    (s.analyze t).value.analyze t = s.analyze t := by
  cases s with
  | «variable» id type? initializer? =>
    by_cases hx : t.contains id.name
    · have hsame : analyzeVariable t id type? initializer? =
          ⟨.variable id type? initializer?, t, some (.alreadyDeclared id.name)⟩ := by
        rw [analyzeVariable.eq_def, if_pos hx]
      rw [analyze, hsame, analyze, hsame]
    · cases initializer? with
      | none => rw [analyze, analyzeVariable, if_neg hx, analyze, analyzeVariable, if_neg hx]
      | some e =>
        have hvalue : (analyzeVariable t id type? (some e)).value =
            .variable id type? (some e.fold.value) := by
          rw [analyzeVariable, if_neg hx, Rewritten.declaring_value]
        rw [analyze, hvalue, analyze, analyzeVariable_fold hx]
  | array id type? elements =>
    by_cases hx : t.contains id.name
    · have hsame : analyzeArray t id type? elements =
          ⟨.array id type? elements, t, some (.alreadyDeclared id.name)⟩ := by
        rw [analyzeArray, if_pos hx]
      rw [analyze, hsame, analyze, hsame]
    · have hvalue : (analyzeArray t id type? elements).value =
          .array id type? (Expr.foldAll elements).value := by
        rw [analyzeArray, if_neg hx, Rewritten.declaring_value]
      rw [analyze, hvalue, analyze, analyzeArray_foldAll hx]
  | expr e =>
    by_cases he : ∃ value, e = .ret (some value)
    · obtain ⟨value, rfl⟩ := he
      rw [analyze_ret, analyze_ret, value.fold_fold]
    · have hne : ∀ value, e.fold.value ≠ .ret (some value) := by
        intro value hvalue
        -- Folding makes no `return` of anything else.
        have hfolded := e.partlyFolded_fold
        rw [hvalue] at hfolded
        cases hfolded
        exact he ⟨value, rfl⟩
      rw [analyze_expr fun value h ↦ he ⟨value, h⟩, analyze_expr hne, e.fold_fold]
  | _ => rfl

end Stmt

/-! ## Programs -/

/-- What a run leaves behind is run through again, to the same declarations. -/
theorem Analyzes.again {t u : SymbolTable} {ss ss' : List Stmt} (h : Analyzes t ss u ss') :
    Analyzes t ss' u ss' := by
  induction h with
  | nil t => exact .nil t
  | @cons t u ss ss' s hs _ ih =>
    have hsame := s.analyze_analyze t
    rw [← hsame] at hs ih
    have hrun := Analyzes.cons (s.analyze t).value hs ih
    rwa [hsame] at hrun

namespace Program

/-- A program that is accepted is accepted again. -/
theorem analyze_analyze_of_accepted {t : SymbolTable} {p : Program}
    (h : (p.analyze t).error? = none) : (p.analyze t).value.analyze t = p.analyze t := by
  have hagain := analyze_eq_iff.2 (analyzes h).again
  rw [← h] at hagain
  exact hagain

/-- A program that fails at a statement fails there again. -/
theorem analyze_analyze_of_error {t : SymbolTable} {p : Program} {err : SemanticError}
    (h : (p.analyze t).error? = some err) : (p.analyze t).value.analyze t = p.analyze t := by
  obtain ⟨before, s, after, u, before', hbody, hrun, hs⟩ := exists_failing h
  have hp : p = ⟨before ++ s :: after⟩ := by rw [← hbody]
  have hsame := s.analyze_analyze u
  have hs' : ((s.analyze u).value.analyze u).error? = some err := by rw [hsame, hs]
  have hagain := analyze_of_error hrun.again hs' after
  rw [hsame] at hagain
  rw [hp, analyze_of_error hrun hs after]
  exact hagain

/-- **Analyzing twice.**  Whatever comes of the analysis of a program, a second analysis behind the
same declarations gives the same error or none, leaves the rewritten program as it is, and declares
the same names with the same types.  In the same way, whatever is left of an expression that has
been folded stays as it is when it is folded again, with the same error or none. -/
theorem analyze_twice (t : SymbolTable) (p : Program) (e : Expr) :
    (p.analyze t).value.analyze t = p.analyze t ∧ e.fold.value.fold = e.fold := by
  refine ⟨?_, e.fold_fold⟩
  cases h : (p.analyze t).error? with
  | none => exact analyze_analyze_of_accepted h
  | some err => exact analyze_analyze_of_error h

end Program

end SvLang
