import SvLang.Proofs.Grammar.Soundness.Expression
import SvLang.Proofs.Grammar.Starts

/-!
# Only statements are read

Whatever the rules of statements read is what a tree writes.  The rules are gone through one by one
on the assumption that those one level deeper are sound (`Rules.Sound`); `Rules.Sound.outer` closes
the step, and `sound_rules` follows by induction on the levels.
-/

set_option autoImplicit false

namespace SvLang

open SvLang.Parser

/-! ## Lists of parameters -/

namespace ParameterTree

theorem tailTerminals_concat (ps : List ParameterTree) (p : ParameterTree) :
    tailTerminals (ps ++ [p]) = tailTerminals ps ++ .ofSymbol .comma :: p.terminals := by
  induction ps with
  | nil => simp [tailTerminals]
  | cons q ps ih => simp [tailTerminals, ih]

theorem listTerminals_concat {ps : List ParameterTree} (h : ps ≠ []) (p : ParameterTree) :
    listTerminals (ps ++ [p]) = listTerminals ps ++ .ofSymbol .comma :: p.terminals := by
  cases ps with
  | nil => exact absurd rfl h
  | cons q ps => simp [listTerminals, tailTerminals_concat]

end ParameterTree

namespace Rules

variable {α : Type} {P : α → List Terminal → Prop}

/-! ## Declarations -/

/-- The semicolon of a declaration, and what comes behind it. -/
theorem reads_declarationEnd {name : String} {p : Parser α}
    (hp : p.Reads fun a u ↦ P a (.ofSymbol .semicolon :: u)) :
    (declarationEnd name >>= fun _ ↦ p).Reads P := by
  refine Reads.bind (P := fun _ u ↦ u = [.ofSymbol .semicolon])
    (reads_onKind rfl rfl (reads_pure rfl) (reads_fail _)) ?_
  rintro _ _ rfl
  exact hp

/-! ## Parameters -/

theorem reads_malformedParameter {P : Identifier → List Terminal → Prop} :
    malformedParameter.Reads P :=
  reads_kind' fun _ ↦ reads_fail _

theorem reads_parameter :
    parameter.Reads fun id u ↦ ∃ p : ParameterTree, p.abstract = id ∧ p.terminals = u := by
  refine reads_branch (fun t rule h ↦ ?_) reads_malformedParameter
  obtain ⟨type, htype, rfl⟩ := Option.map_eq_some_iff.1 h
  have hkind : t.kind = .typeName type := by
    rw [TokenKind.typeName?.eq_def] at htype
    split at htype
    · rename_i k hk
      cases htype
      exact hk
    · cases htype
  rw [Token.terminal_of_kind hkind rfl]
  refine reads_branch (fun x rule h ↦ ?_) reads_malformedParameter
  split at h
  · rename_i hx
    cases h
    rw [Token.terminal_of_hasText hx rfl]
    exact reads_pure ⟨⟨type, x.text⟩, rfl, rfl⟩
  · cases h

theorem reads_parameters (close : TokenKind) :
    (listUntil close parameter shrinks_parameter.keeps).Reads fun ids u ↦
      ∃ ps : List ParameterTree, ps.map ParameterTree.abstract = ids ∧
        ParameterTree.listTerminals ps = u := by
  refine reads_listUntil (L := fun ids u ↦ ∃ ps : List ParameterTree, ps ≠ [] ∧
    ps.map ParameterTree.abstract = ids ∧ ParameterTree.listTerminals ps = u) reads_parameter
    ⟨[], rfl, rfl⟩ ?_ ?_ ?_
  · rintro _ _ ⟨ps, -, rfl, rfl⟩
    exact ⟨ps, rfl, rfl⟩
  · rintro _ _ ⟨p, rfl, rfl⟩
    exact ⟨[p], by simp, rfl, by simp [ParameterTree.listTerminals, ParameterTree.tailTerminals]⟩
  · rintro _ _ _ _ ⟨ps, hps, rfl, rfl⟩ ⟨p, rfl, rfl⟩
    exact ⟨ps ++ [p], by simp, by simp, ParameterTree.listTerminals_concat hps p⟩

/-! ## Tables of the loop header -/

theorem eq_of_loopComparison? {k : TokenKind} {op : ComparisonOp}
    (h : loopComparison? k = some op) :
    k = .symbol (BinaryOp.comparison op).symbol ∧ (op = .less ∨ op = .greater) := by
  rw [loopComparison?.eq_def] at h
  split at h <;> cases h
  · exact ⟨rfl, .inl rfl⟩
  · exact ⟨rfl, .inr rfl⟩

theorem eq_of_stepOp? {k : TokenKind} {op : StepOp} (h : stepOp? k = some op) :
    k = .symbol op.symbol := by
  rw [stepOp?.eq_def] at h
  split at h <;> cases h
  · rfl
  · rfl

/-- What is taken off the front as a step of a name is one. -/
theorem eq_of_steppedName? {ts rest : List Token} {e : Expr}
    (h : steppedName? ts = some (e, rest)) :
    ∃ (x y : Token) (op : StepOp), ts = x :: y :: rest ∧ x.kind = .identifier ∧
      y.kind = .symbol op.symbol ∧ e = .unary op (some (.identifier ⟨x.text, none⟩)) := by
  rw [steppedName?.eq_def] at h
  split at h
  · rename_i x y after
    split at h
    · rename_i hx
      obtain ⟨op, hop, h⟩ := Option.map_eq_some_iff.1 h
      cases h
      exact ⟨x, y, op, rfl, hx, eq_of_stepOp? hop, rfl⟩
    · cases h
  · cases h

namespace Sound

variable {R : Rules} {room : Nat}

/-- A declaration, behind the word that starts it. -/
theorem declaration (hR : R.Sound room) (type? : Option TypeName) :
    (R.declaration type?).Reads fun s u ↦ ∃ d : DeclarationTree, d.abstract = s ∧
      d.terminals = .ofDeclaredType type? :: u ∧ d.levels ≤ room := by
  refine .expect_name fun x ↦ ?_
  refine reads_onKind rfl rfl ?_ (reads_onKind rfl rfl ?_ ?_)
  · refine hR.expr.bind ?_
    rintro _ _ ⟨e, rfl, rfl, he⟩
    exact reads_declarationEnd (reads_pure ⟨.initialized type? x e, rfl, rfl, he⟩)
  · refine .expect rfl rfl (.expect rfl rfl (.expect rfl rfl ?_))
    refine (hR.arguments _).bind ?_
    rintro _ _ ⟨es, rfl, rfl, hes⟩
    exact .expect rfl rfl (reads_declarationEnd (reads_pure ⟨.array type? x es, rfl, rfl, hes⟩))
  · exact reads_declarationEnd (reads_pure ⟨.uninitialized type? x, rfl, rfl, Nat.zero_le _⟩)

/-! ## Blocks -/

/-- Statements in a loop, whatever ends it. -/
theorem body (hR : R.Sound room) (stop : TokenKind → Bool) :
    (manyUntil stop R.stmt R.stmt_shrinks).Reads (StmtForm.body.Derives room) := by
  refine reads_manyUntil hR.stmt ⟨.nil, rfl, rfl, Nat.zero_le _⟩ ?_
  rintro _ _ _ _ ⟨ss, rfl, rfl, hss⟩ ⟨s, rfl, rfl, hs⟩
  exact ⟨.snoc ss s, rfl, rfl, Nat.max_le.2 ⟨hss, hs⟩⟩

/-- The statements of a block, behind its first brace. -/
theorem blockBody (hR : R.Sound room) :
    R.blockBody.Reads fun ss u ↦ StmtForm.block.Derives room ss (.ofSymbol .openBrace :: u) := by
  refine (hR.body _).bind ?_
  rintro _ _ ⟨ss, rfl, rfl, hss⟩
  exact .expect rfl rfl (reads_pure ⟨.braces ss, rfl, rfl, hss⟩)

theorem block (hR : R.Sound room) : R.block.Reads (StmtForm.block.Derives room) :=
  .expect rfl rfl hR.blockBody

/-! ## Functions, conditions and loops -/

theorem function (hR : R.Sound room) :
    R.function.Reads fun s u ↦
      StmtForm.statement.Derives room s (.ofKeyword .functionWord :: u) := by
  refine .expect_name fun x ↦ .expect (x := .ofSymbol .openParen) rfl rfl ?_
  refine (reads_parameters _).bind ?_
  rintro _ _ ⟨ps, rfl, rfl⟩
  refine .expect (x := .ofSymbol .closeParen) rfl rfl (hR.block.bind ?_)
  rintro _ _ ⟨b, rfl, rfl, hb⟩
  refine reads_pure ⟨.function x ps b, rfl, ?_, hb⟩
  simp [StmtTree.terminals]

/-- An expression in parentheses, and what comes behind it. -/
theorem condition (hR : R.Sound room) {place : Landmark} (hplace : place.kind = .symbol .openParen)
    {f : Expr → Parser α}
    (hf : ∀ e : ExprTree .whole, e.levels ≤ room → (f e.abstract).Reads fun a u ↦
      P a (.ofSymbol .openParen :: (e.terminals ++ .ofSymbol .closeParen :: u))) :
    (R.condition place >>= f).Reads P := by
  simp only [Rules.condition, bind_assoc, pure_bind]
  refine .expect (x := .ofSymbol .openParen) (by rw [hplace]; rfl) (by rw [hplace]; rfl) ?_
  refine hR.expr.bind ?_
  rintro _ _ ⟨e, rfl, rfl, he⟩
  exact .expect rfl rfl (hf e he)

theorem whileLoop (hR : R.Sound room) :
    R.whileLoop.Reads fun s u ↦ StmtForm.statement.Derives room s (.ofKeyword .whileWord :: u) := by
  refine hR.condition rfl fun e he ↦ hR.block.bind ?_
  rintro _ _ ⟨b, rfl, rfl, hb⟩
  refine reads_pure ⟨.whileLoop e b, rfl, ?_, Nat.max_le.2 ⟨he, hb⟩⟩
  simp [StmtTree.terminals]

theorem elseBranch? (hR : R.Sound room) :
    R.elseBranch?.Reads (StmtForm.elsePart.Derives room) := by
  refine reads_onKind (k := .keyword .elseWord) rfl rfl (Reads.map ?_ fun _ _ h ↦ h)
    (reads_pure ⟨.noElse, rfl, rfl, Nat.zero_le _⟩)
  refine reads_kind' fun k ↦ ?_
  split
  · refine hR.elseIf.bind ?_
    rintro _ _ ⟨c, rfl, rfl, hc⟩
    refine reads_pure ⟨.elseBranch c, rfl, ?_, hc⟩
    simp [StmtTree.terminals, Terminal.ofKeyword]
  · refine hR.block.mono ?_
    rintro _ _ ⟨b, rfl, rfl, hb⟩
    exact ⟨.elseBlock b, rfl, rfl, hb⟩

/-- An `if`, behind that word. -/
theorem ifElse (hR : R.Sound room) :
    R.ifElse.Reads fun s u ↦ StmtForm.conditional.Derives room s (.ofKeyword .ifWord :: u) := by
  refine hR.condition rfl fun e he ↦ hR.block.bind ?_
  rintro _ _ ⟨b, rfl, rfl, hb⟩
  refine hR.elseBranch?.bind ?_
  rintro _ _ ⟨c, rfl, rfl, hc⟩
  refine reads_pure ⟨.ifElse e b c, rfl, ?_, Nat.max_le.2 ⟨he, Nat.max_le.2 ⟨hb, hc⟩⟩⟩
  simp [StmtTree.terminals]

theorem ifStatement (hR : R.Sound room) :
    R.ifStatement.Reads (StmtForm.conditional.Derives room) :=
  reads_onKind rfl rfl hR.ifElse reads_unexpected

/-! ## Loop headers -/

/-- A loop initializer.  The rule for a statement is only asked where a declaration starts. -/
theorem forInitializer (hR : R.Sound room) :
    R.forInitializer.Reads fun s u ↦ ∃ t : ForStartTree, t.abstract = some s ∧
      t.terminals = u ∧ t.levels ≤ room := by
  have hdeclaration : ∀ k : TokenKind, k.startsDeclaration → R.stmt.Reads fun s u ↦
      (∀ x v, u = x :: v → x.kind = k) → ∃ t : ForStartTree, t.abstract = some s ∧
        t.terminals = u ∧ t.levels ≤ room := by
    refine fun k hk ↦ hR.stmt.mono ?_
    rintro _ _ ⟨t, rfl, rfl, hs⟩ hfirst
    cases t with
    | nested s =>
      obtain ⟨x, v, hxv⟩ := s.exists_cons_terminals
      obtain ⟨d, rfl⟩ := s.eq_declaration (by
        rw [hxv, firstKind_cons, hfirst x v hxv]
        exact hk)
      exact ⟨.declaration d, rfl, rfl, hs⟩
  refine reads_kind fun k ↦ ?_
  split
  · exact hdeclaration _ rfl
  · exact hdeclaration _ rfl
  · refine hR.expr.bind ?_
    rintro _ _ ⟨e, rfl, rfl, he⟩
    exact .expect rfl rfl (reads_pure fun _ ↦ ⟨.expr e, rfl, rfl, he⟩)

theorem forInitializer? (hR : R.Sound room) :
    R.forInitializer?.Reads fun s? u ↦ ∃ t : ForStartTree, t.abstract = s? ∧
      t.terminals = u ∧ t.levels ≤ room :=
  reads_onKind rfl rfl (reads_pure ⟨.nothing, rfl, rfl, Nat.zero_le _⟩)
    (hR.forInitializer.map fun _ _ h ↦ h)

theorem reads_conditionEnd {condition? : Option Expr} {P : Option Expr → List Terminal → Prop}
    (h : P condition? []) : (conditionEnd condition?).Reads P := by
  refine reads_kind' fun k ↦ ?_
  split
  · exact reads_pure h
  · exact reads_kind' fun _ ↦ reads_fail _

theorem forCondition? (hR : R.Sound room) :
    R.forCondition?.Reads fun e? u ↦ ∃ t : ForConditionTree, t.abstract = e? ∧
      t.terminals = u ∧ t.levels ≤ room := by
  refine reads_branch (fun t rule h ↦ ?_)
    (reads_conditionEnd ⟨.nothing, rfl, rfl, Nat.zero_le _⟩)
  split at h
  · rename_i hname
    cases h
    rw [Token.terminal_of_hasText hname rfl]
    refine reads_branch (fun x rule h ↦ ?_)
      (reads_conditionEnd ⟨.name t.text, rfl, rfl, Nat.zero_le _⟩)
    obtain ⟨op, hop, rfl⟩ := Option.map_eq_some_iff.1 h
    obtain ⟨hkind, hop⟩ := eq_of_loopComparison? hop
    rw [Token.terminal_of_kind hkind rfl]
    refine hR.additive.map ?_
    rintro _ _ ⟨e, rfl, rfl, he⟩
    exact ⟨.compare t.text op hop e, rfl, rfl, he⟩
  · cases h

theorem forIncrement? (hR : R.Sound room) :
    R.forIncrement?.Reads fun e? u ↦ ∃ t : ForIncrementTree, t.abstract = e? ∧
      t.terminals = u ∧ t.levels ≤ room := by
  intro ts e? rest h
  rw [Rules.forIncrement?] at h
  split at h
  · cases h
    exact ⟨[], rfl, .nothing, rfl, rfl, Nat.zero_le _⟩
  · split at h
    · rename_i e after hstep
      cases h
      obtain ⟨x, y, op, rfl, hx, hy, rfl⟩ := eq_of_steppedName? hstep
      refine ⟨[x, y], rfl, .step x.text op, rfl, ?_, Nat.zero_le _⟩
      rw [List.map_cons, List.map_singleton, Token.terminal_of_hasText hx rfl,
        Token.terminal_of_kind hy rfl]
      rfl
    · refine hR.expr.map (S := fun e? u ↦ ∃ t : ForIncrementTree, t.abstract = e? ∧
        t.terminals = u ∧ t.levels ≤ room) ?_ _ _ _ h
      rintro _ _ ⟨e, rfl, rfl, he⟩
      exact ⟨.expr e, rfl, rfl, he⟩

theorem forLoop (hR : R.Sound room) :
    R.forLoop.Reads fun s u ↦ StmtForm.statement.Derives room s (.ofKeyword .forWord :: u) := by
  refine .expect (x := .ofSymbol .openParen) rfl rfl (hR.forInitializer?.bind ?_)
  rintro _ _ ⟨start, rfl, rfl, hstart⟩
  refine hR.forCondition?.bind ?_
  rintro _ _ ⟨condition, rfl, rfl, hcondition⟩
  refine .expect (x := .ofSymbol .semicolon) rfl rfl (hR.forIncrement?.bind ?_)
  rintro _ _ ⟨increment, rfl, rfl, hincrement⟩
  refine .expect (x := .ofSymbol .closeParen) rfl rfl (hR.block.bind ?_)
  rintro _ _ ⟨b, rfl, rfl, hb⟩
  refine reads_pure ⟨.forLoop start condition increment b, rfl, ?_, ?_⟩
  · simp [StmtTree.terminals]
  · exact Nat.max_le.2 ⟨hstart, Nat.max_le.2 ⟨hcondition, Nat.max_le.2 ⟨hincrement, hb⟩⟩⟩

/-! ## `switch` -/

theorem caseBody (hR : R.Sound room) : R.caseBody.Reads (StmtForm.caseBody.Derives room) := by
  refine (hR.body _).bind ?_
  rintro _ _ ⟨ss, rfl, rfl, hss⟩
  refine .expect (x := .ofKeyword .breakWord) rfl rfl ?_
  refine .expect (x := .ofSymbol .semicolon) rfl rfl ?_
  exact reads_pure ⟨.caseBody ss, rfl, rfl, hss⟩

/-- A case, behind the word `case`: a value and a body. -/
theorem caseClause (hR : R.Sound room) :
    R.caseClause.Reads fun c u ↦ ∃ (e : ExprTree .whole) (b : StmtTree .caseBody),
      c = .mk e.abstract b.abstract ∧ u = e.terminals ++ .ofSymbol .colon :: b.terminals ∧
        e.levels ≤ room ∧ b.levels ≤ room := by
  refine hR.expr.bind ?_
  rintro _ _ ⟨e, rfl, rfl, he⟩
  refine .expect (x := .ofSymbol .colon) rfl rfl (hR.caseBody.bind ?_)
  rintro _ _ ⟨b, rfl, rfl, hb⟩
  exact reads_pure ⟨e, b, rfl, by rw [List.append_nil], he, hb⟩

theorem cases (hR : R.Sound room) :
    (manyAfter (.keyword .caseWord) R.caseClause R.keeps_caseClause []).Reads
      (StmtForm.cases.Derives room) := by
  refine reads_manyAfter (L := StmtForm.cases.Derives room) (u := []) (x := .ofKeyword .caseWord)
    rfl rfl hR.caseClause ?_ ⟨.noCases, rfl, rfl, Nat.zero_le _⟩
  rintro _ _ _ _ ⟨cs, rfl, rfl, hcs⟩ ⟨e, b, rfl, rfl, he, hb⟩
  exact ⟨.addCase cs e b, rfl, rfl, Nat.max_le.2 ⟨hcs, Nat.max_le.2 ⟨he, hb⟩⟩⟩

theorem defaultClause? (hR : R.Sound room) :
    R.defaultClause?.Reads (StmtForm.defaultPart.Derives room) := by
  refine reads_onKind (x := .ofKeyword .defaultWord) rfl rfl ?_
    (reads_pure ⟨.noDefault, rfl, rfl, Nat.zero_le _⟩)
  refine Reads.map (P := fun b u ↦ StmtForm.defaultPart.Derives room (some b)
    (.ofKeyword .defaultWord :: u)) ?_ fun _ _ h ↦ h
  refine .expect (x := .ofSymbol .colon) rfl rfl (hR.caseBody.mono ?_)
  rintro _ _ ⟨b, rfl, rfl, hb⟩
  exact ⟨.default b, rfl, rfl, hb⟩

theorem switch (hR : R.Sound room) :
    R.switch.Reads fun s u ↦ StmtForm.statement.Derives room s (.ofKeyword .switchWord :: u) := by
  refine hR.condition rfl fun e he ↦ ?_
  refine .expect (x := .ofSymbol .openBrace) rfl rfl (hR.cases.bind ?_)
  rintro _ _ ⟨cs, rfl, rfl, hcs⟩
  refine hR.defaultClause?.bind ?_
  rintro _ _ ⟨d, rfl, rfl, hd⟩
  refine .expect (x := .ofSymbol .closeBrace) rfl rfl ?_
  refine reads_pure ⟨.switch e cs d, rfl, ?_, Nat.max_le.2 ⟨he, Nat.max_le.2 ⟨hcs, hd⟩⟩⟩
  simp [StmtTree.terminals]

/-! ## Any statement -/

theorem exprStatement (hR : R.Sound room) :
    R.exprStatement.Reads (StmtForm.statement.Derives room) := by
  refine hR.expr.bind ?_
  rintro _ _ ⟨e, rfl, rfl, he⟩
  exact reads_onKind rfl rfl (reads_pure ⟨.expr e true, rfl, rfl, he⟩)
    (reads_pure ⟨.expr e false, rfl, rfl, he⟩)

/-- A declaration as a statement. -/
theorem declarationStatement (hR : R.Sound room) (type? : Option TypeName) :
    (R.declaration type?).Reads fun s u ↦
      StmtForm.statement.Derives room s (.ofDeclaredType type? :: u) := by
  refine (hR.declaration type?).mono ?_
  rintro _ _ ⟨d, rfl, hd, hl⟩
  exact ⟨.declaration d, rfl, hd, hl⟩

theorem statement (hR : R.Sound room) : R.statement.Reads (StmtForm.statement.Derives room) := by
  refine reads_branch (fun t rule h ↦ ?_) hR.exprStatement
  rw [statementRule?] at h
  split at h
  case h_1 type hkind => exact reads_rule h hkind rfl (hR.declarationStatement (some type))
  case h_2 hkind => exact reads_rule h hkind rfl (hR.declarationStatement none)
  case h_3 hkind =>
    exact reads_rule h hkind rfl (reads_pure ⟨.empty, rfl, rfl, Nat.zero_le _⟩)
  case h_4 hkind => exact reads_rule h hkind rfl hR.function
  case h_5 hkind => exact reads_rule h hkind rfl hR.whileLoop
  case h_6 hkind =>
    refine reads_rule h hkind rfl (hR.ifElse.mono ?_)
    rintro _ _ ⟨c, rfl, hu, hc⟩
    exact ⟨.conditional c, rfl, hu, hc⟩
  case h_7 hkind => exact reads_rule h hkind rfl hR.forLoop
  case h_8 hkind => exact reads_rule h hkind rfl hR.switch
  case h_9 hkind =>
    refine reads_rule h hkind rfl (hR.blockBody.map ?_)
    rintro _ _ ⟨b, rfl, hu, hb⟩
    exact ⟨.block b, rfl, hu, hb⟩
  case h_10 => cases h

/-! ## Level by level -/

/-- The rules of the grammar hand soundness on to the next level further out. -/
theorem outer (hR : R.Sound room) : R.outer.Sound (room + 1) where
  expr := by
    refine hR.comparison.mono ?_
    rintro _ _ ⟨e, rfl, rfl, he⟩
    exact ⟨.whole e, rfl, rfl, Nat.succ_le_succ he⟩
  operand := by
    refine hR.primary.mono ?_
    rintro _ _ ⟨e, rfl, rfl, he⟩
    exact ⟨.operand e, rfl, rfl, Nat.succ_le_succ he⟩
  stmt := by
    refine hR.statement.mono ?_
    rintro _ _ ⟨s, rfl, rfl, hs⟩
    exact ⟨.nested s, rfl, rfl, Nat.succ_le_succ hs⟩
  elseIf := by
    refine hR.ifStatement.mono ?_
    rintro _ _ ⟨c, rfl, rfl, hc⟩
    exact ⟨.elseIf c, rfl, rfl, Nat.succ_le_succ hc⟩

end Sound

/-- The rules of every level read nothing but what trees write. -/
theorem sound_rules (limit room : Nat) : (rules limit room).Sound room := by
  induction room with
  | zero => exact ⟨reads_fail _, reads_fail _, reads_fail _, reads_fail _⟩
  | succ room ih => exact ih.outer

end Rules

end SvLang
