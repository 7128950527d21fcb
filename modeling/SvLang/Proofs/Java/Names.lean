import SvLang.Proofs.Analysis.PassedOver
import SvLang.Proofs.Grammar.Soundness
import SvLang.Proofs.Java.Lines
import SvLang.Proofs.Lexing.Tokens
import SvLang.Proofs.Source

/-!
# Names in a Java text are words

A name of a program comes from a token, and the token from a word of the source.  So the names that
are handed on to Java are words, in programs that have just been read (`named_of_parseSource`) as
well as in analyzed ones (`named_of_analyzeSource`), and the lines of the Java text can be taken
apart.
-/

set_option autoImplicit false

namespace SvLang

/-! ## Tokens -/

/-- The text of an identifier is a name. -/
theorem isName_of_mem_tokenize {source : String} {ts : List Token} (h : tokenize source = .ok ts)
    {t : Token} (ht : t ∈ ts) (hkind : t.kind = .identifier) : Lexeme.IsName t.text := by
  obtain ⟨l, hl, hk, htext⟩ :=
    (tokenize_eq_ok_iff.1 h).exists_lexeme ht (by rw [hkind]; exact nofun)
  rw [hkind] at hk
  cases l with
  | word letters =>
    refine ⟨?_, ?_⟩
    · rw [Lexeme.IsWord, htext, String.toList_ofList]
      exact hl
    · rw [htext]
      exact hk.symm
  | symbol | whole | decimal | quoted => cases hk

/-! ## Trees -/

/-- A number refers to no variable. -/
theorem Java.Value.names_of_number {w : Width} {x : Float} {v : Value}
    (h : ofExpr? (.number w x) = some v) : v.names = [] := by
  cases w with
  | numeric =>
    rw [ofExpr?] at h
    split at h <;> cases h <;> rfl
  | float | double =>
    cases h
    rfl

/-- Every variable of a value is a name that has been written. -/
def ExprForm.NamesWritten : (c : ExprForm) → c.Abstract → List Terminal → Prop
  | .tier _, e, u | .operand, e, u | .whole, e, u =>
    ∀ v, Java.Value.ofExpr? e = some v → ∀ x ∈ v.names, Terminal.ofName x ∈ u
  | .items, _, _ | .arguments, _, _ => True

/-- The variables of the value of an expression are written in its tree. -/
theorem ExprTree.namesWritten {c : ExprForm} (t : ExprTree c) :
    c.NamesWritten t.abstract t.terminals := by
  induction t with
  | name x =>
    rintro v ⟨⟩ y hy
    rw [List.mem_singleton.1 hy]
    exact List.mem_cons_self
  | number w text value =>
    intro v hv y hy
    rw [Java.Value.names_of_number hv] at hy
    cases hy
  | quoted q content =>
    rintro v ⟨⟩ y hy
    cases hy
  | group e ih =>
    intro v hv y hy
    exact List.mem_cons_of_mem _ (List.mem_append_left _ (ih v hv y hy))
  | lift _ e ih | operand e ih | whole e ih => exact ih
  | binary _ left op _ right ihl ihr =>
    intro v hv y hy
    rw [terminals, List.mem_append]
    rw [abstract] at hv
    cases op with
    | arithmetic op =>
      rw [Java.Value.ofExpr?] at hv
      split at hv
      · rename_i l r hl hr
        cases hv
        rcases List.mem_append.1 hy with hy | hy
        · exact .inl (ihl l hl y hy)
        · exact .inr (List.mem_cons_of_mem _ (ihr r hr y hy))
      · cases hv
    | assignment | step | comparison => cases hv
  | call | stepBefore | ret | retNothing | stepBehind => rintro v ⟨⟩
  | one | more | noArguments | arguments => trivial

/-- A statement of a program is written as a part of its text. -/
theorem StmtTree.exists_of_mem_body : (t : StmtTree .body) → ∀ s ∈ t.abstract,
    ∃ s' : StmtTree .statement, s'.abstract = s ∧ ∀ x ∈ s'.terminals, x ∈ t.terminals
  | .nil, s, hs => nomatch hs
  | .snoc ss (.nested s'), s, hs => by
    rcases List.mem_append.1 hs with hs | hs
    · obtain ⟨s'', rfl, hmem⟩ := exists_of_mem_body ss s hs
      exact ⟨s'', rfl, fun x hx ↦ List.mem_append_left _ (hmem x hx)⟩
    · obtain rfl := List.mem_singleton.1 hs
      exact ⟨s', rfl, fun x hx ↦ List.mem_append_right _ hx⟩

/-! ## Statements -/

/-- The names that a declaration of a variable hands on to Java are words. -/
def Stmt.Named : Stmt → Prop
  | .variable id _ initializer? => Lexeme.IsWord id.name ∧
      ∀ e, initializer? = some e → ∀ v, Java.Value.ofExpr? e = some v →
        ∀ x ∈ v.names, Lexeme.IsWord x
  | _ => True

theorem Stmt.Named.declaration {s : Stmt} (hs : s.Named) {d : Java.Declaration}
    (hd : Java.Declaration.ofStmt? s = some d) : d.Named := by
  rw [Java.Declaration.ofStmt?.eq_def] at hd
  split at hd
  · cases hd
    exact ⟨hs.1, nofun⟩
  · obtain ⟨v, hv, rfl⟩ := Option.map_eq_some_iff.1 hd
    refine ⟨hs.1, ?_⟩
    rintro _ ⟨⟩
    exact hs.2 _ rfl v hv
  · cases hd

/-- If the names that are written are words, so are those that are handed on. -/
theorem StmtTree.named {s : StmtTree .statement}
    (h : ∀ x, Terminal.ofName x ∈ s.terminals → Lexeme.IsWord x) : s.abstract.Named := by
  cases s with
  | declaration d =>
    cases d with
    | initialized type? x e =>
      refine ⟨h x (by simp [terminals, DeclarationTree.terminals]), ?_⟩
      rintro _ ⟨⟩ v hv y hy
      have hmem := e.namesWritten v hv y hy
      exact h y (by simp [terminals, DeclarationTree.terminals, hmem])
    | uninitialized type? x =>
      exact ⟨h x (by simp [terminals, DeclarationTree.terminals]), by simp⟩
    | array => trivial
  | conditional c =>
    cases c
    trivial
  | _ => trivial

/-- A statement of a program that has been read is written with names of the source. -/
theorem exists_tree_of_parseSource {source : String} {p : Program}
    (h : parseSource source = .ok p) {s : Stmt} (hs : s ∈ p.body) :
    ∃ s' : StmtTree .statement, s'.abstract = s ∧
      ∀ x, Terminal.ofName x ∈ s'.terminals → Lexeme.IsName x := by
  obtain ⟨ts, htokenize, hparse⟩ := parseSource_eq_ok_iff.1 h
  obtain ⟨t, hts, -, rfl⟩ := exists_tree_of_parseWithin hparse
  obtain ⟨s', rfl, hmem⟩ := t.exists_of_mem_body s hs
  refine ⟨s', rfl, fun x hx ↦ ?_⟩
  have hwritten := hmem _ hx
  rw [← hts] at hwritten
  obtain ⟨token, htoken, hname⟩ := List.mem_map.1 hwritten
  obtain ⟨hkind, htext⟩ := Token.isName_of_terminal hname
  have hsource := (List.takeWhile_sublist _).mem htoken
  rw [← htext]
  exact isName_of_mem_tokenize htokenize hsource hkind

/-- The names that a program hands on are words when it has been read. -/
theorem named_of_parseSource {source : String} {p : Program} (h : parseSource source = .ok p) :
    ∀ s ∈ p.body, s.Named := by
  intro s hs
  obtain ⟨s', rfl, hnames⟩ := exists_tree_of_parseSource h hs
  exact StmtTree.named fun x hx ↦ (hnames x hx).1

/-! ## What is folded -/

/-- A number has a value. -/
theorem Java.Value.exists_of_number (w : Width) (x : Float) :
    ∃ v, ofExpr? (.number w x) = some v := by
  cases w with
  | numeric =>
    rw [ofExpr?]
    split <;> exact ⟨_, rfl⟩
  | float | double => exact ⟨_, rfl⟩

/-- What has a value behind folding had one before, with the same names or more. -/
theorem Expr.PartlyFolded.exists_value {e e' : Expr} (h : e.PartlyFolded e') {v' : Java.Value}
    (hv' : Java.Value.ofExpr? e' = some v') :
    ∃ v, Java.Value.ofExpr? e = some v ∧ ∀ x ∈ v'.names, x ∈ v.names := by
  induction h generalizing v' with
  | refl e => exact ⟨v', hv', fun _ hx ↦ hx⟩
  | operands op _ _ ihl ihr =>
    cases op with
    | arithmetic a =>
      rw [Java.Value.ofExpr?] at hv'
      split at hv'
      · rename_i l' r' hl' hr'
        cases hv'
        obtain ⟨l, hl, hleft⟩ := ihl hl'
        obtain ⟨r, hr, hright⟩ := ihr hr'
        refine ⟨.operation l a r, by rw [Java.Value.ofExpr?, hl, hr], fun x hx ↦ ?_⟩
        rw [Java.Value.names, List.mem_append] at hx ⊢
        exact hx.imp (hleft x) (hright x)
      · cases hv'
    | assignment | step | comparison => cases hv'
  | @computed left right u w x y a _ _ ihl ihr =>
    obtain ⟨l', hl'⟩ := Java.Value.exists_of_number u x
    obtain ⟨r', hr'⟩ := Java.Value.exists_of_number w y
    obtain ⟨l, hl, -⟩ := ihl hl'
    obtain ⟨r, hr, -⟩ := ihr hr'
    refine ⟨.operation l a r, by rw [Java.Value.ofExpr?, hl, hr], ?_⟩
    rw [Java.Value.names_of_number hv']
    exact fun x hx ↦ absurd hx List.not_mem_nil

/-- Folding brings no new names into a statement. -/
theorem Stmt.PartlyFolded.named {s s' : Stmt} (h : s.PartlyFolded s') (hs : s.Named) :
    s'.Named := by
  cases h with
  | «variable» id type? h =>
    refine ⟨hs.1, ?_⟩
    rintro e' rfl v' hv' x hx
    cases h with
    | some h =>
      obtain ⟨v, hv, hnames⟩ := h.exists_value hv'
      exact hs.2 _ rfl v hv x (hnames x hx)
  | array | expr | ret => trivial
  | same => exact hs

/-- The names that a program hands on are words when it has been analyzed. -/
theorem named_of_analyzeSource {source : String} {a : AnalyzedProgram}
    (h : analyzeSource source = .ok a) : ∀ s ∈ a.program.body, s.Named := by
  intro s hs
  obtain ⟨p, hparse, -, hprogram, -⟩ := analyzeSource_eq_ok_iff.1 h
  rw [hprogram] at hs
  obtain ⟨s', hs', hfold⟩ := Program.exists_partlyFolded hs
  exact hfold.named (named_of_parseSource hparse s' hs')

end SvLang
