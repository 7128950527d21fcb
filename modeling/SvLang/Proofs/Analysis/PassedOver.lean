import SvLang.Java
import SvLang.Proofs.Analysis.Failure

/-!
# What the analysis passes over

The analysis looks at declarations, at operations that are statements, and at what is returned.  It
passes over every other statement, with all that is nested in it: the bodies of functions, loops,
conditionals, switches and blocks, and the arguments of calls.

So what such a statement holds can be exchanged for anything else that is passed over, and nothing
changes elsewhere: neither the verdict, nor the names, nor how the other statements are rewritten,
nor the Java text.  `Program.analyze_passedOver` is the main statement; it compares the
analyses of two programs.

## What is here

* `Stmt.isPassedOver`, and `Stmt.Interchangeable` for two statements in the same place.
* `Stmt.analyze_interchangeable` for one statement, `analyzeFrom_interchangeable` for the loop, and
  `Java.declarations_interchangeable` for the text.
* `Lockstep`: what the analyses of two lists of statements have in common.
* `Keeps`: what every analysis leaves as it is.
-/

set_option autoImplicit false

namespace SvLang

/-! ## One statement -/

namespace Stmt

/-- Whether the analysis passes over a statement, with all it holds. -/
def isPassedOver : Stmt → Bool
  | .variable .. | .array .. | .expr (.binary ..) | .expr (.ret _) => false
  | _ => true

/-- Two statements are the same, or both are passed over. -/
def Interchangeable (s r : Stmt) : Prop := s = r ∨ s.isPassedOver ∧ r.isPassedOver

variable {s r : Stmt}

/-- A statement that is passed over stays as it is, declares nothing and does not fail. -/
theorem analyze_of_isPassedOver (t : SymbolTable) (h : s.isPassedOver) :
    s.analyze t = ⟨s, t, none⟩ := by
  cases s with
  | «variable» | array => cases h
  | expr e =>
    cases e with
    | binary | ret => cases h
    | _ => rfl
  | _ => rfl

/-- A statement that is passed over has no Java form. -/
theorem ofStmt?_of_isPassedOver (h : s.isPassedOver) : Java.Declaration.ofStmt? s = none := by
  cases s with
  | «variable» => cases h
  | _ => rfl

theorem Interchangeable.ofStmt?_eq (h : s.Interchangeable r) :
    Java.Declaration.ofStmt? s = Java.Declaration.ofStmt? r := by
  rcases h with rfl | ⟨hs, hr⟩
  · rfl
  · rw [ofStmt?_of_isPassedOver hs, ofStmt?_of_isPassedOver hr]

/-- Of two statements that are interchangeable, one is analyzed as the other is, up to what may be
exchanged. -/
theorem analyze_interchangeable (t : SymbolTable) (h : s.Interchangeable r) :
    (s.analyze t).error? = (r.analyze t).error? ∧ (s.analyze t).symbols = (r.analyze t).symbols ∧
      (s.analyze t).value.Interchangeable (r.analyze t).value := by
  rcases h with rfl | ⟨hs, hr⟩
  · exact ⟨rfl, rfl, .inl rfl⟩
  · rw [analyze_of_isPassedOver t hs, analyze_of_isPassedOver t hr]
    exact ⟨rfl, rfl, .inr ⟨hs, hr⟩⟩

end Stmt

/-! ## The loop over the statements -/

/-- What has been done before only stands in front of what is still to come. -/
theorem analyzeFrom_done (t : SymbolTable) (done ss : List Stmt) :
    analyzeFrom t done ss = { analyzeFrom t [] ss with
      value := done.reverse ++ (analyzeFrom t [] ss).value } := by
  induction ss generalizing t done with
  | nil => simp [analyzeFrom]
  | cons s ss ih =>
    rw [analyzeFrom, analyzeFrom]
    cases (s.analyze t).error? with
    | some e => simp
    | none =>
      simp only
      rw [ih _ (_ :: done), ih _ [_]]
      simp

/-- The first statement is analyzed, and if it does not fail, the others behind it. -/
theorem analyzeFrom_cons (t : SymbolTable) (s : Stmt) (ss : List Stmt) :
    analyzeFrom t [] (s :: ss) =
      match (s.analyze t).error? with
      | none => { analyzeFrom (s.analyze t).symbols [] ss with
          value := (s.analyze t).value :: (analyzeFrom (s.analyze t).symbols [] ss).value }
      | some e => ⟨(s.analyze t).value :: ss, (s.analyze t).symbols, some e⟩ := by
  rw [analyzeFrom]
  cases (s.analyze t).error? with
  | some e => rfl
  | none =>
    simp only
    rw [analyzeFrom_done]
    rfl

/-- Whether or not it comes to its end, the loop only folds expressions. -/
theorem partlyFolded_analyzeFrom (t : SymbolTable) (ss : List Stmt) :
    List.Forall₂ Stmt.PartlyFolded ss (analyzeFrom t [] ss).value := by
  induction ss generalizing t with
  | nil => exact .nil
  | cons s ss ih =>
    rw [analyzeFrom_cons]
    cases (s.analyze t).error? with
    | none => exact .cons (s.partlyFolded_analyze t) (ih _)
    | some e => exact .cons (s.partlyFolded_analyze t) (List.forall₂_same.2 fun r _ ↦ .same r)

/-- The loop leaves alone what it passes over. -/
theorem getElem?_analyzeFrom_of_isPassedOver (t : SymbolTable) {ss : List Stmt} {i : Nat} {s : Stmt}
    (hi : ss[i]? = some s) (hs : s.isPassedOver) : (analyzeFrom t [] ss).value[i]? = some s := by
  induction ss generalizing t i with
  | nil => simp at hi
  | cons r ss ih =>
    rw [analyzeFrom_cons]
    cases i with
    | zero =>
      obtain rfl : r = s := by simpa using hi
      rw [Stmt.analyze_of_isPassedOver t hs]
      rfl
    | succ i =>
      rw [List.getElem?_cons_succ] at hi
      cases (r.analyze t).error? with
      | none => exact ih _ hi
      | some e => exact hi

/-- What the analyses of two lists of statements have in common. -/
structure Lockstep (ss rs : List Stmt) (a b : Analyzed (List Stmt)) : Prop where
  /-- They end with the same error, or with none. -/
  error? : a.error? = b.error?
  /-- They declare the same names with the same types. -/
  symbols : a.symbols = b.symbols
  /-- They leave behind statements that are interchangeable. -/
  value : List.Forall₂ Stmt.Interchangeable a.value b.value
  /-- What stands at the same place in both lists is rewritten to the same. -/
  same : ∀ i : Nat, ss[i]? = rs[i]? → a.value[i]? = b.value[i]?

/-- **Lists of interchangeable statements are analyzed in lockstep.** -/
theorem analyzeFrom_interchangeable (t : SymbolTable) {ss rs : List Stmt}
    (h : List.Forall₂ Stmt.Interchangeable ss rs) :
    Lockstep ss rs (analyzeFrom t [] ss) (analyzeFrom t [] rs) := by
  induction h generalizing t with
  | nil => exact ⟨rfl, rfl, .nil, fun _ _ ↦ rfl⟩
  | @cons s r ss rs hsr hrest ih =>
    obtain ⟨herror, hsymbols, hvalue⟩ := Stmt.analyze_interchangeable t hsr
    have hfirst : s = r → (s.analyze t).value = (r.analyze t).value := fun h ↦ by rw [h]
    rw [analyzeFrom_cons, analyzeFrom_cons, ← herror, ← hsymbols]
    cases (s.analyze t).error? with
    | some e =>
      refine ⟨rfl, rfl, .cons hvalue hrest, fun i hi ↦ ?_⟩
      cases i with
      | zero => simpa using hfirst (by simpa using hi)
      | succ i => simpa using hi
    | none =>
      have hlock := ih (s.analyze t).symbols
      refine ⟨hlock.error?, hlock.symbols, .cons hvalue hlock.value, fun i hi ↦ ?_⟩
      cases i with
      | zero => simpa using hfirst (by simpa using hi)
      | succ i => simpa using hlock.same i (by simpa using hi)

/-! ## Programs -/

/-- What an analysis keeps of a program. -/
structure Keeps (p : Program) (a : Analyzed Program) : Prop where
  /-- What is passed over is left as it is. -/
  passedOver : ∀ (i : Nat) (s : Stmt), p.body[i]? = some s → s.isPassedOver →
    a.value.body[i]? = some s
  /-- There are as many statements as before, each with its form, its name and its declared type. -/
  forms : List.Forall₂ Stmt.PartlyFolded p.body a.value.body

theorem Program.keeps_analyze (t : SymbolTable) (p : Program) : Keeps p (p.analyze t) :=
  ⟨fun _ _ hi hs ↦ getElem?_analyzeFrom_of_isPassedOver t hi hs, partlyFolded_analyzeFrom t p.body⟩

/-- Each statement that an analysis leaves behind is one of the program, folded in part. -/
theorem Program.exists_partlyFolded {t : SymbolTable} {p : Program} {s' : Stmt}
    (hs' : s' ∈ (p.analyze t).value.body) : ∃ s ∈ p.body, s.PartlyFolded s' := by
  obtain ⟨i, hi, rfl⟩ := List.mem_iff_getElem.1 hs'
  have hforms := (keeps_analyze t p).forms
  have hlt : i < p.body.length := hforms.length_eq ▸ hi
  exact ⟨p.body[i], List.getElem_mem hlt, hforms.get hlt hi⟩

/-- Lists of interchangeable statements hold the same variables of Java. -/
theorem Java.declarations_interchangeable {ss rs : List Stmt}
    (h : List.Forall₂ Stmt.Interchangeable ss rs) : declarations ⟨ss⟩ = declarations ⟨rs⟩ := by
  rw [declarations, declarations]
  induction h with
  | nil => rfl
  | cons hsr _ ih => rw [List.filterMap_cons, List.filterMap_cons, hsr.ofStmt?_eq, ih]

/-- **What is passed over has no influence.**  Let the statements of two programs, place by place,
be the same or both passed over.  Then, behind the same names,
* the analyses end with the same error, or both without, and declare the same names;
* each leaves as it is what it passes over, and keeps the form, the name and the declared type of
  every statement;
* what stands at the same place in both programs is rewritten to the same;
* the rewritten programs have the same Java text. -/
theorem Program.analyze_passedOver (t : SymbolTable) {p q : Program}
    (h : List.Forall₂ Stmt.Interchangeable p.body q.body) :
    (p.analyze t).error? = (q.analyze t).error? ∧ (p.analyze t).symbols = (q.analyze t).symbols ∧
      Keeps p (p.analyze t) ∧ Keeps q (q.analyze t) ∧
      (∀ i : Nat, p.body[i]? = q.body[i]? →
        (p.analyze t).value.body[i]? = (q.analyze t).value.body[i]?) ∧
      Java.emit (p.analyze t).value = Java.emit (q.analyze t).value := by
  have hlock : Lockstep p.body q.body (analyzeFrom t [] p.body) (analyzeFrom t [] q.body) :=
    analyzeFrom_interchangeable t h
  have hjava : Java.declarations (p.analyze t).value = Java.declarations (q.analyze t).value :=
    Java.declarations_interchangeable hlock.value
  refine ⟨hlock.error?, hlock.symbols, keeps_analyze t p, keeps_analyze t q, hlock.same, ?_⟩
  rw [Java.emit, Java.emit, hjava]

/-- One program holds a function and a loop where the other holds a bare semicolon and a block.
What is nested in them would be refused at the top. -/
theorem Program.analyze_passedOver_nested :
    ∃ p q : Program, List.Forall₂ Stmt.Interchangeable p.body q.body ∧ p.body.length = 3 ∧
      (p.analyze .empty).error? = none ∧ (q.analyze .empty).error? = none ∧
      (p.analyze .empty).symbols = (q.analyze .empty).symbols ∧
      Keeps p (p.analyze .empty) ∧ Keeps q (q.analyze .empty) ∧
      (p.analyze .empty).value.body[2]? = (q.analyze .empty).value.body[2]? ∧
      Java.emit (p.analyze .empty).value = Java.emit (q.analyze .empty).value := by
  let sum : Stmt := .variable ⟨"x", none⟩ none
    (some (.binary (.number .numeric 1) (.arithmetic .add) (.number .numeric 2)))
  let wrong : Stmt := .expr (.binary (.identifier ⟨"y", none⟩) (.arithmetic .add)
    (.number .numeric 1))
  let p : Program := ⟨[.function ⟨"f", none⟩ [] [wrong],
    .whileLoop (.identifier ⟨"y", none⟩) [sum, sum], sum]⟩
  let q : Program := ⟨[.empty, .block [.variable ⟨"x", none⟩ none none, wrong], sum]⟩
  have h : List.Forall₂ Stmt.Interchangeable p.body q.body :=
    .cons (.inr ⟨rfl, rfl⟩) (.cons (.inr ⟨rfl, rfl⟩) (.cons (.inl rfl) .nil))
  have hp : (p.analyze .empty).error? = none := by decide +kernel
  obtain ⟨herror, hsymbols, hkp, hkq, hsame, hjava⟩ := analyze_passedOver .empty h
  exact ⟨p, q, h, rfl, hp, herror ▸ hp, hsymbols, hkp, hkq, hsame 2 rfl, hjava⟩

end SvLang
