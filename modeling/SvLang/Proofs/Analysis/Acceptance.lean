import SvLang.Proofs.Analysis.Failure

/-!
# Which programs are accepted, and what they declare

The analysis goes through a program once and keeps a table on the way.  Here both its answers are
said without that loop: a program is accepted if and only if it is `Acceptable`, and the table
behind it `Records` its declarations, each with the type that `typesAfter` finds for it.
`Program.accepts_iff` is the main statement.

## What is here

* `typesAfter`: the types of the names behind some statements.  A variable that is declared without
  a type word and set to another variable takes the type that this one has by then.
* `Stmt.Acceptable` for one statement behind the types of the names so far, with
  `Stmt.firstError?_eq_none_iff`, and `Acceptable` for a list, with `acceptable_cons`.
* `Records` for the table of an accepted program.
-/

set_option autoImplicit false

namespace SvLang

/-- A new name makes the table larger by one. -/
theorem SymbolTable.size_insert {t : SymbolTable} {x : String} (h : t.type? x = none)
    (type : ValueType) : (t.insert x type).size = t.size + 1 := by
  have hx : t.contains x = false := by rw [contains_eq, h, Option.isSome_none]
  rw [contains] at hx
  simp [size, insert, Std.ExtTreeMap.size_insert, hx]

/-! ## Types of names -/

namespace Stmt

/-- The type that a declared name gets, from the types of the names so far: that of its type word;
without one, the type is read off the initializer. -/
def recordedType (types : String → Option ValueType) : Stmt → ValueType
  | .variable _ (some type) _ => .ofTypeName type
  | .variable _ none (some (.text _ _)) => .text
  | .variable _ none (some (.identifier y)) => (types y.name).getD .other
  | .variable _ none (some e) => if e.isArithmetic then .numeric else .other
  | _ => .other

/-- The types of the names behind a statement. -/
def record (types : String → Option ValueType) (s : Stmt) : String → Option ValueType :=
  match s.declaredName? with
  | some x => fun y ↦ if x = y then some (s.recordedType types) else types y
  | none => types

end Stmt

/-- The types of the names behind some statements. -/
def typesAfter (types : String → Option ValueType) (ss : List Stmt) : String → Option ValueType :=
  ss.foldl Stmt.record types

/-- The names that statements declare, in their order. -/
def declaredNames (ss : List Stmt) : List String := ss.filterMap Stmt.declaredName?

theorem mem_declaredNames_cons {s : Stmt} {ss : List Stmt} {x : String} :
    x ∈ declaredNames (s :: ss) ↔ s.declaredName? = some x ∨ x ∈ declaredNames ss := by
  simp [declaredNames]

theorem nodup_declaredNames_cons {s : Stmt} {ss : List Stmt} :
    (declaredNames (s :: ss)).Nodup ↔
      (∀ x, s.declaredName? = some x → x ∉ declaredNames ss) ∧ (declaredNames ss).Nodup := by
  rw [declaredNames, declaredNames, List.filterMap_cons]
  cases s.declaredName? <;> simp

section Types

variable {types : String → Option ValueType}

theorem Stmt.record_of_ne {s : Stmt} {x : String} (h : s.declaredName? ≠ some x) :
    s.record types x = types x := by
  rw [record]
  cases hs : s.declaredName? with
  | none => rfl
  | some y => exact if_neg fun hy ↦ h (by rw [hs, hy])

theorem Stmt.record_self {s : Stmt} {x : String} (h : s.declaredName? = some x) :
    s.record types x = some (s.recordedType types) := by
  rw [record, h]
  exact if_pos rfl

/-- A name that is not declared keeps its type. -/
theorem typesAfter_of_notMem {ss : List Stmt} {x : String} (h : x ∉ declaredNames ss) :
    typesAfter types ss x = types x := by
  induction ss generalizing types with
  | nil => rfl
  | cons s ss ih =>
    rw [mem_declaredNames_cons, not_or] at h
    rw [typesAfter, List.foldl_cons, ← typesAfter, ih h.2, Stmt.record_of_ne h.1]

end Types

/-! ## One statement -/

namespace Stmt

/-- What a statement has to be behind names of these types. -/
structure Acceptable (types : String → Option ValueType) (s : Stmt) : Prop where
  /-- The name that is declared is a new one. -/
  fresh : ∀ x, s.declaredName? = some x → types x = none
  /-- A variable has an initializer. -/
  initialized : ∀ id type?, s ≠ .variable id type? none
  /-- Arithmetic is on numbers. -/
  arithmetic : ∀ e ∈ s.foldedExprs, e.ComputesOnNumbers
  /-- What is returned is a number, arithmetic, or a name for a number. -/
  returned : ∀ e, s = .expr (.ret (some e)) →
    e.isArithmetic ∨ ∃ y, e = .identifier y ∧ types y.name = some .numeric

end Stmt

/-- The type that a variable takes from its folded initializer can be read off the initializer. -/
theorem Expr.infer_fold {t : SymbolTable} {e : Expr} (h : e.fold.error? = none) (id : Identifier) :
    e.fold.value.infer t = (Stmt.variable id none (some e)).recordedType t.type? := by
  cases e with
  | binary left op right =>
    rcases fold_binary_cases h with ⟨he, w, x, hvalue⟩ | ⟨he, l, o, r, hvalue⟩
    · rw [hvalue, Stmt.recordedType, he]
      · rfl
      · exact nofun
      · exact nofun
    · rw [hvalue, Stmt.recordedType, he]
      · rfl
      · exact nofun
      · exact nofun
  | _ => rfl

/-- What may be returned can be read off the value before it is folded. -/
theorem error?_checkReturn_fold {t : SymbolTable} {e : Expr} (h : e.fold.error? = none) :
    (checkReturn t e.fold.value).error? = none ↔
      e.isArithmetic ∨ ∃ y, e = .identifier y ∧ t.type? y.name = some .numeric := by
  cases e with
  | binary left op right =>
    rcases Expr.fold_binary_cases h with ⟨he, w, x, hvalue⟩ | ⟨he, l, o, r, hvalue⟩
    · rw [hvalue]
      exact iff_of_true rfl (.inl he)
    · rw [hvalue]
      exact iff_of_false (Option.some_ne_none _) (by simp [he])
  | number w x => exact iff_of_true rfl (.inl rfl)
  | identifier y =>
    simp only [Expr.fold, Rewritten.done, checkReturn, Expr.resolve, Expr.isArithmetic]
    cases hy : t.type? y.name with
    | none => simp [Rewritten.stopped, hy]
    | some type => cases type <;> simp [Rewritten.stopped, hy]
  | _ => exact iff_of_false (Option.some_ne_none _) (by simp [Expr.isArithmetic])

namespace Stmt

variable {t : SymbolTable} {s : Stmt}

theorem duplicate?_eq_none_iff :
    s.duplicate? t = none ↔ ∀ x, s.declaredName? = some x → t.type? x = none := by
  rw [duplicate?]
  cases s.declaredName? with
  | none => simp
  | some x => simp [SymbolTable.contains_eq]

theorem uninitialized?_eq_none_iff :
    s.uninitialized? = none ↔ ∀ id type?, s ≠ .variable id type? none := by
  fun_cases uninitialized? s <;> simp_all

theorem foldError?_eq_none_iff :
    s.foldError? = none ↔ ∀ e ∈ s.foldedExprs, e.ComputesOnNumbers := by
  simp only [foldError?, List.findSome?_eq_none_iff, Expr.fold_error?_eq_none_iff]

theorem returnError?_eq_none_iff (h : s.foldError? = none) :
    s.returnError? t = none ↔ ∀ e, s = .expr (.ret (some e)) →
      e.isArithmetic ∨ ∃ y, e = .identifier y ∧ t.type? y.name = some .numeric := by
  fun_cases returnError? t s with
  | case1 e =>
    have he : e.fold.error? = none := by simpa [foldError?, foldedExprs] using h
    rw [error?_checkReturn_fold he]
    simp
  | case2 hs => simp_all

/-- **A statement fails no check if and only if it is acceptable.** -/
theorem firstError?_eq_none_iff : s.firstError? t = none ↔ s.Acceptable t.type? := by
  simp only [firstError?, Option.or_eq_none_iff]
  constructor
  · rintro ⟨hfresh, hinit, hfold, hret⟩
    exact ⟨duplicate?_eq_none_iff.1 hfresh, uninitialized?_eq_none_iff.1 hinit,
      foldError?_eq_none_iff.1 hfold, (returnError?_eq_none_iff hfold).1 hret⟩
  · rintro ⟨hfresh, hinit, harith, hret⟩
    have hfold := foldError?_eq_none_iff.2 harith
    exact ⟨duplicate?_eq_none_iff.2 hfresh, uninitialized?_eq_none_iff.2 hinit, hfold,
      (returnError?_eq_none_iff hfold).2 hret⟩

/-- A declaration that does not fail adds its name to the table. -/
theorem symbols_of_declaredName? (h : (s.analyze t).error? = none) {x : String}
    (hx : s.declaredName? = some x) :
    (s.analyze t).symbols = t.insert x (s.recordedType t.type?) := by
  cases s with
  | «variable» id type? initializer? =>
    cases hx
    obtain ⟨e, rfl, hfold, -⟩ := analyze_variable h
    rw [analyze, analyzeVariable.eq_def] at h ⊢
    by_cases hx : t.contains id.name
    · simp [hx] at h
    · simp only [hx, Bool.false_eq_true, if_false, Rewritten.declaring_symbols, hfold, if_true]
      cases type? with
      | none => rw [Option.map_none, Option.getD_none, Expr.infer_fold hfold id]
      | some type => rfl
  | array id type? elements =>
    cases hx
    rw [analyze, analyzeArray] at h ⊢
    by_cases hx : t.contains id.name
    · simp [hx] at h
    · simp only [hx, Bool.false_eq_true, if_false, Rewritten.declaring_error?] at h ⊢
      simp only [Rewritten.declaring_symbols, h, if_true, recordedType]
  | _ => cases hx

/-- The types of the names behind a statement that does not fail. -/
theorem type?_symbols_analyze (h : (s.analyze t).error? = none) :
    (s.analyze t).symbols.type? = s.record t.type? := by
  funext y
  rw [record]
  cases hs : s.declaredName? with
  | none => rw [symbols_of_declaredName?_eq_none hs]
  | some x => rw [symbols_of_declaredName? h hs, SymbolTable.type?_insert]

/-- A statement that does not fail adds one entry to the table if it declares a name. -/
theorem size_symbols_analyze (h : (s.analyze t).error? = none) :
    (s.analyze t).symbols.size = t.size + s.declaredName?.toList.length := by
  cases hs : s.declaredName? with
  | none =>
    rw [symbols_of_declaredName?_eq_none hs]
    rfl
  | some x =>
    have hfresh : t.type? x = none := by
      rw [error?_analyze, firstError?_eq_none_iff] at h
      exact h.fresh x hs
    rw [symbols_of_declaredName? h hs, SymbolTable.size_insert hfresh]
    rfl

end Stmt

/-! ## Programs -/

/-- What the statements of a program have to be behind names of these types. -/
structure Acceptable (types : String → Option ValueType) (ss : List Stmt) : Prop where
  /-- No name is declared twice. -/
  nodup : (declaredNames ss).Nodup
  /-- No name that is declared has been there before. -/
  fresh : ∀ x ∈ declaredNames ss, types x = none
  /-- Every variable has an initializer. -/
  initialized : ∀ id type?, .variable id type? none ∉ ss
  /-- Wherever arithmetic is reached in an initializer, an element, an operation that is a statement
  or a value that is returned, its operands are numbers or arithmetic. -/
  arithmetic : ∀ s ∈ ss, ∀ e ∈ s.foldedExprs, e.ComputesOnNumbers
  /-- What is returned is a number, arithmetic, or a name that is a number by then. -/
  returned : ∀ before e after, ss = before ++ .expr (.ret (some e)) :: after →
    e.isArithmetic ∨ ∃ y, e = .identifier y ∧ typesAfter types before y.name = some .numeric

theorem acceptable_nil (types : String → Option ValueType) : Acceptable types [] :=
  ⟨List.nodup_nil, nofun, nofun, nofun, by simp⟩

/-- Statements are acceptable if the first one is and the others are behind it. -/
theorem acceptable_cons {types : String → Option ValueType} {s : Stmt} {ss : List Stmt} :
    Acceptable types (s :: ss) ↔ s.Acceptable types ∧ Acceptable (s.record types) ss := by
  constructor
  · intro h
    obtain ⟨hnew, hnodup⟩ := nodup_declaredNames_cons.1 h.nodup
    refine ⟨⟨fun x hx ↦ h.fresh x (mem_declaredNames_cons.2 (.inl hx)), ?_,
      h.arithmetic s List.mem_cons_self, ?_⟩, hnodup, ?_, ?_, ?_, ?_⟩
    · rintro id type? rfl
      exact h.initialized id type? List.mem_cons_self
    · rintro e rfl
      exact h.returned [] e ss rfl
    · intro x hx
      rw [Stmt.record_of_ne fun hs ↦ hnew x hs hx]
      exact h.fresh x (mem_declaredNames_cons.2 (.inr hx))
    · exact fun id type? hmem ↦ h.initialized id type? (List.mem_cons_of_mem _ hmem)
    · exact fun r hr ↦ h.arithmetic r (List.mem_cons_of_mem _ hr)
    · rintro before e after rfl
      exact h.returned (s :: before) e after rfl
  · rintro ⟨hs, hss⟩
    -- The names of the others are new behind the first one, so they are other names than its own.
    have hother : ∀ x ∈ declaredNames ss, s.declaredName? ≠ some x := by
      intro x hx hsx
      have hnone := hss.fresh x hx
      rw [Stmt.record_self hsx] at hnone
      cases hnone
    refine ⟨nodup_declaredNames_cons.2 ⟨fun x hsx hx ↦ hother x hx hsx, hss.nodup⟩, ?_, ?_, ?_, ?_⟩
    · intro x hx
      rcases mem_declaredNames_cons.1 hx with hsx | hx
      · exact hs.fresh x hsx
      · exact (Stmt.record_of_ne (hother x hx)).symm.trans (hss.fresh x hx)
    · intro id type? hmem
      rcases List.mem_cons.1 hmem with rfl | hmem
      · exact hs.initialized id type? rfl
      · exact hss.initialized id type? hmem
    · exact List.forall_mem_cons.2 ⟨hs.arithmetic, hss.arithmetic⟩
    · intro before e after h
      cases before with
      | nil => exact hs.returned e (List.cons.inj h).1
      | cons r before =>
        obtain ⟨rfl, hsplit⟩ := List.cons.inj h
        exact hss.returned before e after hsplit

/-- **Statements are analyzed without error if and only if they are acceptable.** -/
theorem exists_analyzes_iff {t : SymbolTable} {ss : List Stmt} :
    (∃ u ss', Analyzes t ss u ss') ↔ Acceptable t.type? ss := by
  induction ss generalizing t with
  | nil => exact iff_of_true ⟨t, [], .nil t⟩ (acceptable_nil _)
  | cons s ss ih =>
    rw [acceptable_cons, ← Stmt.firstError?_eq_none_iff, ← Stmt.error?_analyze]
    constructor
    · rintro ⟨u, _, ⟨⟩⟩
      rename_i hs hss
      rw [← Stmt.type?_symbols_analyze hs]
      exact ⟨hs, ih.1 ⟨_, _, hss⟩⟩
    · rintro ⟨hs, hss⟩
      rw [← Stmt.type?_symbols_analyze hs] at hss
      obtain ⟨u, ss', hrun⟩ := ih.2 hss
      exact ⟨u, _, .cons s hs hrun⟩

/-- The table `u` is the table `t` with one entry for each declaration. -/
structure Records (t u : SymbolTable) (ss : List Stmt) : Prop where
  /-- What is not declared is as it was. -/
  kept : ∀ x, x ∉ declaredNames ss → u.type? x = t.type? x
  /-- What is declared has the type that its declaration gives it. -/
  declared : ∀ before s after x, ss = before ++ s :: after → s.declaredName? = some x →
    u.type? x = some (s.recordedType (typesAfter t.type? before))
  /-- There are as many new entries as declarations. -/
  size : u.size = t.size + (declaredNames ss).length

/-- The types of the names behind a run. -/
theorem Analyzes.type?_eq {t u : SymbolTable} {ss ss' : List Stmt} (h : Analyzes t ss u ss') :
    u.type? = typesAfter t.type? ss := by
  induction h with
  | nil => rfl
  | cons s hs _ ih =>
    rw [ih, Stmt.type?_symbols_analyze hs, typesAfter, typesAfter, List.foldl_cons]

theorem Analyzes.size_eq {t u : SymbolTable} {ss ss' : List Stmt} (h : Analyzes t ss u ss') :
    u.size = t.size + (declaredNames ss).length := by
  induction h with
  | nil => rfl
  | cons s hs _ ih =>
    rw [ih, Stmt.size_symbols_analyze hs, declaredNames, declaredNames, List.filterMap_cons]
    cases s.declaredName? with
    | none => rfl
    | some x => simp; omega

theorem Analyzes.records {t u : SymbolTable} {ss ss' : List Stmt} (h : Analyzes t ss u ss') :
    Records t u ss := by
  refine ⟨fun x hx ↦ ?_, ?_, h.size_eq⟩
  · rw [h.type?_eq, typesAfter_of_notMem hx]
  · rintro before s after x rfl hx
    -- The declaration of `x` is the last one, as no name is declared twice.
    have hnodup := (exists_analyzes_iff.1 ⟨u, ss', h⟩).nodup
    have hafter : x ∉ declaredNames after := by
      rw [declaredNames, List.filterMap_append, List.filterMap_cons, hx] at hnodup
      exact (List.nodup_cons.1 (List.nodup_append.1 hnodup).2.1).1
    rw [h.type?_eq, typesAfter, List.foldl_append, List.foldl_cons, ← typesAfter, ← typesAfter,
      typesAfter_of_notMem hafter, Stmt.record_self hx]

/-- **Which programs are accepted, and what they declare.**  A program is analyzed without error if
and only if its statements are acceptable behind the names of the table, and then the table is
extended by the declarations. -/
theorem Program.accepts_iff (t : SymbolTable) (p : Program) :
    ((p.analyze t).error? = none ↔ Acceptable t.type? p.body) ∧
      ((p.analyze t).error? = none → Records t (p.analyze t).symbols p.body) := by
  constructor
  · rw [← exists_analyzes_iff]
    constructor
    · exact fun h ↦ ⟨_, _, Program.analyzes h⟩
    · rintro ⟨u, ss', h⟩
      exact congrArg Analyzed.error? (analyze_eq_iff.2 h)
  · exact fun h ↦ (Program.analyzes h).records

/-- A variable that is set to a variable that is set to a sum may be returned. -/
theorem Program.accepts_iff_copy :
    ∃ p : Program, (p.analyze (SymbolTable.empty.insert "s" .text)).error? = none ∧
      Acceptable (SymbolTable.empty.insert "s" .text).type? p.body ∧
      Records (SymbolTable.empty.insert "s" .text)
        (p.analyze (SymbolTable.empty.insert "s" .text)).symbols p.body := by
  have h : ((⟨[.variable ⟨"x", none⟩ none
        (some (.binary (.number .numeric 1) (.arithmetic .add) (.number .float 0.5))),
      .variable ⟨"y", none⟩ none (some (.identifier ⟨"x", none⟩)),
      .array ⟨"a", none⟩ (some .int) [.identifier ⟨"s", none⟩],
      .expr (.ret (some (.identifier ⟨"y", none⟩)))]⟩ : Program).analyze
        (SymbolTable.empty.insert "s" .text)).error? = none := by
    decide +kernel
  exact ⟨_, h, (accepts_iff _ _).1.1 h, (accepts_iff _ _).2 h⟩

end SvLang
