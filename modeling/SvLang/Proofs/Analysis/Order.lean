import SvLang.Java
import SvLang.Proofs.Analysis.Acceptance

/-!
# The order of declarations

Two declarations next to each other can be exchanged, unless one of them depends on the other.  The
analysis asks the table for two names only: the one that is declared, which must not be there yet,
and the one that a variable without a type word is set to, because it gives the variable its type.
So two declarations are independent if they declare different names and neither takes its type from
the other.  That a name occurs in an initializer is no dependence: the initializer is folded without
the table.

`Program.analyze_comm` is the main statement.  It is symmetric in the two declarations as far as the
verdict and the table go, but not in the errors: of two declarations that fail, the first one is
reported.

## What is here

* `Stmt.Independent`, and `Stmt.analyze_insert`: the analysis of a declaration does not see a name
  that it does not ask for.
* `Stmt.Independent.alone`: behind the one declaration, the other is analyzed as it is alone.
* `Java.lineOf`: what is written of a statement.
* `Exchanged`: what two analyses that succeed have in common.
-/

set_option autoImplicit false

namespace SvLang

/-! ## The table -/

namespace SymbolTable

variable (t : SymbolTable) {x y : String} (a b : ValueType)

/-- It makes no difference in which order two names are declared. -/
theorem insert_comm (h : x ≠ y) : (t.insert x a).insert y b = (t.insert y b).insert x a := by
  refine ext_type? fun z ↦ ?_
  simp only [type?_insert]
  by_cases hx : x = z
  · rw [if_pos hx, if_pos hx, if_neg fun hy ↦ h (hx.trans hy.symm)]
  · rw [if_neg hx, if_neg hx]

theorem contains_insert_of_ne (h : x ≠ y) : (t.insert y b).contains x = t.contains x := by
  rw [contains_eq, contains_eq, type?_insert, if_neg h.symm]

end SymbolTable

/-! ## Declarations that do not depend on each other -/

namespace Stmt

/-- The name from which a variable takes its type. -/
def copied? : Stmt → Option String
  | .variable _ none (some (.identifier y)) => some y.name
  | _ => none

/-- Two declarations that do not depend on each other. -/
structure Independent (s r : Stmt) : Prop where
  /-- Both declare a name. -/
  declares : s.declaredName?.isSome ∧ r.declaredName?.isSome
  /-- They declare different names. -/
  names : s.declaredName? ≠ r.declaredName?
  /-- Neither takes its type from the other. -/
  types : s.copied? ≠ r.declaredName? ∧ r.copied? ≠ s.declaredName?

theorem Independent.symm {s r : Stmt} (h : s.Independent r) : r.Independent s :=
  ⟨h.declares.symm, h.names.symm, h.types.symm⟩

end Stmt

/-- The type of an expression does not depend on a name that it is not. -/
theorem Expr.infer_insert {t : SymbolTable} {e : Expr} {y : String} (type : ValueType)
    (h : ∀ id, e = .identifier id → id.name ≠ y) : e.infer (t.insert y type) = e.infer t := by
  cases e with
  | identifier id =>
    rw [infer, infer, SymbolTable.type?_insert, if_neg (h id rfl).symm]
  | _ => rfl

/-- Another name that is declared does not get in the way of a declaration. -/
theorem Rewritten.declaring_insert (r : Rewritten Stmt) (t : SymbolTable) {x y : String}
    (a b : ValueType) (h : x ≠ y) :
    r.declaring (t.insert y b) x a =
      { r.declaring t x a with symbols := (r.declaring t x a).symbols.insert y b } := by
  rw [declaring, declaring]
  cases r.error? with
  | none => rw [SymbolTable.insert_comm t b a h.symm]
  | some e => rfl

namespace Stmt

variable {s r : Stmt}

/-- **The analysis of a declaration does not see a name that it does not ask for.** -/
theorem analyze_insert (t : SymbolTable) {x y : String} (type : ValueType)
    (hx : s.declaredName? = some x) (hxy : x ≠ y) (hs : s.copied? ≠ some y) :
    s.analyze (t.insert y type) =
      { s.analyze t with symbols := (s.analyze t).symbols.insert y type } := by
  cases s with
  | «variable» id type? initializer? =>
    cases hx
    rw [analyze, analyze, analyzeVariable.eq_def, analyzeVariable.eq_def,
      t.contains_insert_of_ne type hxy]
    by_cases hid : t.contains id.name
    · rw [if_pos hid, if_pos hid]
    · rw [if_neg hid, if_neg hid]
      cases initializer? with
      | none => rfl
      | some e =>
        have htype : (type?.map ValueType.ofTypeName).getD (e.fold.value.infer (t.insert y type)) =
            (type?.map ValueType.ofTypeName).getD (e.fold.value.infer t) := by
          cases type? with
          | some word => rfl
          | none =>
            refine Expr.infer_insert type fun z hz ↦ ?_
            -- Folding makes no name of anything else.
            have hfolded := e.partlyFolded_fold
            rw [hz] at hfolded
            cases hfolded
            exact fun hy ↦ hs (congrArg some hy)
        simp only [htype]
        exact Rewritten.declaring_insert _ t _ type hxy
  | array id type? elements =>
    cases hx
    rw [analyze, analyze, analyzeArray, analyzeArray, t.contains_insert_of_ne type hxy]
    by_cases hid : t.contains id.name
    · rw [if_pos hid, if_pos hid]
    · rw [if_neg hid, if_neg hid]
      exact Rewritten.declaring_insert _ t _ type hxy
  | _ => cases hx

namespace Independent

theorem exists_names (h : s.Independent r) :
    ∃ x y, s.declaredName? = some x ∧ r.declaredName? = some y ∧ x ≠ y ∧ s.copied? ≠ some y ∧
      r.copied? ≠ some x := by
  obtain ⟨x, hx⟩ := Option.isSome_iff_exists.1 h.declares.1
  obtain ⟨y, hy⟩ := Option.isSome_iff_exists.1 h.declares.2
  refine ⟨x, y, hx, hy, fun hxy ↦ h.names (by rw [hx, hy, hxy]), ?_, ?_⟩
  · rw [← hy]
    exact h.types.1
  · rw [← hx]
    exact h.types.2

/-- **Behind the one declaration, the other is analyzed as it is alone.** -/
theorem alone (h : s.Independent r) (t : SymbolTable) :
    (r.analyze (s.analyze t).symbols).error? = (r.analyze t).error? ∧
      (r.analyze (s.analyze t).symbols).value = (r.analyze t).value := by
  obtain ⟨x, y, hx, hy, hne, -, hcopied⟩ := h.exists_names
  cases hs : (s.analyze t).error? with
  | some e =>
    rw [symbols_of_error hs]
    exact ⟨rfl, rfl⟩
  | none =>
    rw [symbols_of_declaredName? hs hx, analyze_insert t _ hy hne.symm hcopied]
    exact ⟨rfl, rfl⟩

/-- Two declarations that do not fail leave the same table behind in either order. -/
theorem symbols_comm (h : s.Independent r) {t : SymbolTable} (hs : (s.analyze t).error? = none)
    (hr : (r.analyze t).error? = none) :
    (r.analyze (s.analyze t).symbols).symbols = (s.analyze (r.analyze t).symbols).symbols := by
  obtain ⟨x, y, hx, hy, hne, hscopied, hrcopied⟩ := h.exists_names
  rw [symbols_of_declaredName? hs hx, symbols_of_declaredName? hr hy,
    analyze_insert t _ hx hne hscopied, analyze_insert t _ hy hne.symm hrcopied]
  show (r.analyze t).symbols.insert _ _ = (s.analyze t).symbols.insert _ _
  rw [symbols_of_declaredName? hs hx, symbols_of_declaredName? hr hy,
    SymbolTable.insert_comm t _ _ hne]

end Independent

end Stmt

/-! ## Runs -/

/-- **Two independent declarations in a run can be exchanged.**  The run leaves behind the same
table and the same statements, up to the exchange. -/
theorem Analyzes.exchange {t u : SymbolTable} {before after out : List Stmt} {s r : Stmt}
    (h : s.Independent r) (hrun : Analyzes t (before ++ s :: r :: after) u out) :
    ∃ before' s' r' after', List.Forall₂ Stmt.PartlyFolded before before' ∧ s.PartlyFolded s' ∧
      r.PartlyFolded r' ∧ List.Forall₂ Stmt.PartlyFolded after after' ∧
      out = before' ++ s' :: r' :: after' ∧
      Analyzes t (before ++ r :: s :: after) u (before' ++ r' :: s' :: after') := by
  obtain ⟨v, before', rest', rfl, hbefore, hrest⟩ := hrun.of_append
  obtain ⟨⟩ | ⟨s, hs, hrest⟩ := hrest
  obtain ⟨⟩ | ⟨r, hr, hafter⟩ := hrest
  rename_i after'
  obtain ⟨hrerror, hrvalue⟩ := h.alone v
  obtain ⟨hserror, hsvalue⟩ := h.symm.alone v
  rw [hrerror] at hr
  rw [h.symbols_comm hs hr] at hafter
  refine ⟨before', _, _, after', hbefore.partlyFolded, s.partlyFolded_analyze v,
    r.partlyFolded_analyze _, hafter.partlyFolded, rfl, hbefore.append ?_⟩
  rw [hrvalue, ← hsvalue]
  exact .cons r hr (.cons s (hserror.trans hs) hafter)

/-! ## Programs -/

/-- The line that is written of a statement, with its line feed, and nothing if it has no Java
form. -/
def Java.lineOf (s : Stmt) : String := ((Declaration.ofStmt? s).map Declaration.line).getD ""

/-- The text of a program is written statement by statement. -/
theorem Java.emit_eq_join (ss : List Stmt) :
    emit ⟨ss⟩ = header ++ String.join (ss.map lineOf) ++ footer := by
  have hlines : String.join ((ss.filterMap Declaration.ofStmt?).map Declaration.line) =
      String.join (ss.map lineOf) := by
    induction ss with
    | nil => rfl
    | cons s ss ih =>
      rw [List.map_cons, String.join_cons, ← ih, List.filterMap_cons, lineOf]
      cases Declaration.ofStmt? s with
      | none => simp
      | some d => simp
  rw [emit, mainClass, declarations, hlines]

/-- What two analyses have in common that differ in the order of two statements, `s` in front of `r`
in the first.  What stands in front of them is `before` and what follows is `after`. -/
structure Exchanged (a b : Analyzed Program) (before : List Stmt) (s r : Stmt)
    (after : List Stmt) : Prop where
  /-- Both come to their end. -/
  accepted : a.error? = none ∧ b.error? = none
  /-- They declare the same names with the same types. -/
  symbols : a.symbols = b.symbols
  /-- They rewrite the statements to the same, in their order, and so the lines of the two are
  exchanged in the Java texts. -/
  rewritten : ∃ before' s' r' after', List.Forall₂ Stmt.PartlyFolded before before' ∧
    s.PartlyFolded s' ∧ r.PartlyFolded r' ∧ List.Forall₂ Stmt.PartlyFolded after after' ∧
    a.value.body = before' ++ s' :: r' :: after' ∧ b.value.body = before' ++ r' :: s' :: after' ∧
    ∃ above below, Java.emit a.value = above ++ Java.lineOf s' ++ Java.lineOf r' ++ below ∧
      Java.emit b.value = above ++ Java.lineOf r' ++ Java.lineOf s' ++ below

/-- A program that is accepted is accepted with two independent declarations exchanged. -/
theorem Program.exchanged_of_accepted {t : SymbolTable} {before after : List Stmt} {s r : Stmt}
    (h : s.Independent r)
    (haccepted : ((⟨before ++ s :: r :: after⟩ : Program).analyze t).error? = none) :
    Exchanged ((⟨before ++ s :: r :: after⟩ : Program).analyze t)
      ((⟨before ++ r :: s :: after⟩ : Program).analyze t) before s r after := by
  obtain ⟨before', s', r', after', hbefore, hs, hr, hafter, hbody, hrun⟩ :=
    (analyzes haccepted).exchange h
  rw [analyze_eq_iff.2 hrun]
  have hvalue : ((⟨before ++ s :: r :: after⟩ : Program).analyze t).value =
      ⟨before' ++ s' :: r' :: after'⟩ := congrArg Program.mk hbody
  refine ⟨⟨haccepted, rfl⟩, rfl, before', s', r', after', hbefore, hs, hr, hafter, hbody, rfl,
    Java.header ++ String.join (before'.map Java.lineOf),
    String.join (after'.map Java.lineOf) ++ Java.footer, ?_, ?_⟩
  · rw [hvalue]
    simp [Java.emit_eq_join, String.append_assoc]
  · simp [Java.emit_eq_join, String.append_assoc]

/-- **Independent declarations can be exchanged.**  If two declarations stand next to each other in
a program, declare different names, and neither takes its type from the other, then the program is
accepted if and only if it is with the two exchanged.  If so, the names are declared with the same
types, all statements are rewritten to the same, and the Java texts differ only in the order of the
two lines.  If not, both programs fail, though not always with the same error. -/
theorem Program.analyze_comm (t : SymbolTable) (before after : List Stmt) {s r : Stmt}
    (h : s.Independent r) :
    Exchanged ((⟨before ++ s :: r :: after⟩ : Program).analyze t)
        ((⟨before ++ r :: s :: after⟩ : Program).analyze t) before s r after ∨
      ((⟨before ++ s :: r :: after⟩ : Program).analyze t).error? ≠ none ∧
        ((⟨before ++ r :: s :: after⟩ : Program).analyze t).error? ≠ none := by
  by_cases haccepted : ((⟨before ++ s :: r :: after⟩ : Program).analyze t).error? = none
  · exact .inl (exchanged_of_accepted h haccepted)
  · refine .inr ⟨haccepted, fun hother ↦ haccepted ?_⟩
    exact (exchanged_of_accepted h.symm hother).accepted.2

/-- A copy of `x` and a sum, behind the declaration of `x` and in front of a `return` of the
copy. -/
theorem Program.analyze_comm_copy :
    ∃ before s r after, s.Independent r ∧
      ((⟨before ++ s :: r :: after⟩ : Program).analyze .empty).error? = none ∧
      Exchanged ((⟨before ++ s :: r :: after⟩ : Program).analyze .empty)
        ((⟨before ++ r :: s :: after⟩ : Program).analyze .empty) before s r after := by
  let s : Stmt := .variable ⟨"y", none⟩ none (some (.identifier ⟨"x", none⟩))
  let r : Stmt := .variable ⟨"z", none⟩ none
    (some (.binary (.number .numeric 1) (.arithmetic .add) (.number .numeric 2)))
  let before : List Stmt := [.variable ⟨"x", none⟩ (some .int) (some (.number .numeric 4))]
  let after : List Stmt := [.expr (.ret (some (.identifier ⟨"y", none⟩)))]
  have h : s.Independent r := ⟨by decide, by decide, by decide⟩
  have haccepted : ((⟨before ++ s :: r :: after⟩ : Program).analyze .empty).error? = none := by
    decide +kernel
  exact ⟨before, s, r, after, h, haccepted,
    (analyze_comm .empty before after h).resolve_right fun hfails ↦ hfails.1 haccepted⟩

/-- The copy and the declaration of `x` are not independent: with the two exchanged, it is not known
that the copy is a number. -/
example :
    let x : Stmt := .variable ⟨"x", none⟩ (some .int) (some (.number .numeric 4))
    let y : Stmt := .variable ⟨"y", none⟩ none (some (.identifier ⟨"x", none⟩))
    let returned : Stmt := .expr (.ret (some (.identifier ⟨"y", none⟩)))
    ((⟨[x, y, returned]⟩ : Program).analyze .empty).error? = none ∧
      ((⟨[y, x, returned]⟩ : Program).analyze .empty).error? =
        some (.invalidReturnType "Identifier") := by
  decide +kernel

end SvLang
