import SvLang.Proofs.Grammar.Completeness.Expression

/-!
# Statements are read back

The parts of statements are read back from their terminals one by one — declarations, parameters,
loop headers — and then the trees of statements.  For each of their forms, a tree is read back if
its parts are (`StmtTree.ReadBack`), so all trees are (`StmtTree.readBy`).

A statement ends by its own semicolon or brace, so all that matters of the token behind it is that
it is no `else`.  Lists of statements are read in the loop up to a token that starts no statement.
-/

set_option autoImplicit false

namespace SvLang

open SvLang.Parser

/-! ## Declarations -/

namespace Rules

variable {α : Type} {limit room : Nat} {k : TokenKind}

theorem leads_declarationEnd (name : String) (p : Parser α) :
    (declarationEnd name >>= fun _ ↦ p).Leads [.ofSymbol .semicolon] k p :=
  (leads_onKind rfl k).bind_pure _

/-- A declaration is read back behind the word that starts it. -/
theorem leads_declaration (d : DeclarationTree) (hl : d.levels ≤ room) (hs : d.Settled) :
    ∃ type? u, d.terminals = .ofDeclaredType type? :: u ∧
      ((rules limit room).declaration type?).Leads u k (pure d.abstract) := by
  cases d with
  | initialized type? x e =>
    refine ⟨type?, _, rfl, (leads_expect_name x _ _).cons ((leads_onKind rfl _).cons ?_)⟩
    exact ((e.leads_expr hl hs rfl).bind_pure _).trans (leads_declarationEnd x _)
  | uninitialized type? x =>
    refine ⟨type?, _, rfl, (leads_expect_name x _ _).cons ?_⟩
    refine (leads_onKind_otherwise (by simp [Terminal.ofSymbol])).look ?_
    refine (leads_onKind_otherwise (by simp [Terminal.ofSymbol])).look ?_
    exact leads_declarationEnd x _
  | array type? x es =>
    refine ⟨type?, _, rfl, (leads_expect_name x _ _).cons ?_⟩
    refine (leads_onKind_otherwise (by simp [Terminal.ofSymbol])).look ?_
    refine (leads_onKind rfl _).cons ((leads_expect .arrayBracket rfl _ _).cons ?_)
    refine (leads_expect .arrayAssign rfl _ _).cons ((leads_expect .arrayOpen rfl _ _).cons ?_)
    refine ((es.readBy limit hl hs rfl (by decide) (by simp)).bind_pure _).trans ?_
    exact (leads_expect .arrayClose rfl _ _).cons (leads_declarationEnd x _)

/-! ## Parameters -/

theorem leads_parameter (p : ParameterTree) : parameter.Leads p.terminals k (pure p.abstract) := by
  refine (leads_branch (q := parameterName p.type) (fun t ht ↦ ?_) _).cons ?_
  · rw [Token.kind_of_terminal ht]
    rfl
  · refine leads_branch (fun t ht ↦ ?_) k
    obtain ⟨hkind, htext⟩ := Token.isName_of_terminal ht
    rw [if_pos hkind, htext]
    rfl

theorem leads_parameters_tail (ps : List ParameterTree) (done : List Identifier) :
    (manyAfter (.symbol .comma) parameter shrinks_parameter.keeps done).Leads
      (ParameterTree.tailTerminals ps) (.symbol .closeParen)
      (pure (done.reverse ++ ps.map ParameterTree.abstract)) := by
  induction ps generalizing done with
  | nil =>
    rw [List.map_nil, List.append_nil]
    exact leads_manyAfter_stop (by simp)
  | cons p ps ih =>
    have htail := ih (p.abstract :: done)
    rw [List.reverse_cons, List.append_assoc, List.singleton_append] at htail
    exact (leads_manyAfter rfl (leads_parameter p)).trans htail

theorem leads_parameters (ps : List ParameterTree) :
    (listUntil (.symbol .closeParen) parameter shrinks_parameter.keeps).Leads
      (ParameterTree.listTerminals ps) (.symbol .closeParen)
      (pure (ps.map ParameterTree.abstract)) := by
  cases ps with
  | nil => exact leads_listUntil_none
  | cons p ps =>
    refine (leads_listUntil ?_ (leads_parameter p)).trans (leads_parameters_tail ps [p.abstract])
    simp [ParameterTree.terminals]

/-! ## Conditions and loop headers -/

/-- An expression in parentheses, and what comes behind it. -/
theorem leads_condition {place : Landmark} (hplace : place.kind = .symbol .openParen)
    (e : ExprTree .whole) (hl : e.levels ≤ room) (hs : e.Settled (.symbol .closeParen))
    {f : Expr → Parser α} {v : List Terminal} {q : Parser α} (hf : (f e.abstract).Leads v k q) :
    ((rules limit room).condition place >>= f).Leads
      (.ofSymbol .openParen :: (e.terminals ++ .ofSymbol .closeParen :: v)) k q := by
  simp only [condition, bind_assoc, pure_bind]
  refine (leads_expect place hplace.symm _ _).cons ?_
  exact ((e.leads_expr hl hs rfl).bind_pure _).trans
    ((leads_expect .conditionClose rfl _ _).cons hf)

theorem leads_forInitializer (t : ForStartTree) (hl : t.levels ≤ room) (hs : t.Settled)
    (hstmt : ∀ d : DeclarationTree, d.levels + 1 ≤ room → d.Settled →
      (rules limit room).stmt.Leads d.terminals k (pure d.abstract)) :
    (rules limit room).forInitializer?.Leads t.terminals k (pure t.abstract) := by
  cases t with
  | nothing => exact leads_onKind rfl k
  | declaration d =>
    have hd := hstmt d hl hs
    refine (leads_onKind_otherwise ?_).look (Leads.map_pure ((leads_kind _ _).look ?_) some)
    · cases d with
      | initialized type? | uninitialized type? | array type? =>
        cases type? <;> simp [ForStartTree.terminals, DeclarationTree.terminals,
          Terminal.ofDeclaredType, Terminal.ofKeyword]
    · cases d with
      | initialized type? | uninitialized type? | array type? => cases type? <;> exact hd
  | expr e =>
    have hfirst : (firstKind (ForStartTree.expr e).terminals k).startsExpr := by
      rw [ForStartTree.terminals, firstKind_append]
      exact e.startsExpr_firstKind (by simp) _
    refine (leads_onKind_otherwise ?_).look (Leads.map_pure ((leads_kind _ _).look ?_) some)
    · intro h
      rw [h] at hfirst
      exact absurd hfirst (by decide)
    · split
      · rename_i h
        rw [h] at hfirst
        exact absurd hfirst (by decide)
      · rename_i h
        rw [h] at hfirst
        exact absurd hfirst Bool.false_ne_true
      · exact ((e.leads_expr hl hs rfl).bind_pure _).trans
          (leads_expect .forInitializerEnd rfl _ k)

theorem leads_conditionEnd (condition? : Option Expr) :
    (conditionEnd condition?).Leads [] (.symbol .semicolon) (pure condition?) := by
  refine (leads_kind _ _).stop ?_
  rw [if_pos rfl]
  exact .refl _ _

theorem loopComparison?_symbol {op : ComparisonOp} (h : op = .less ∨ op = .greater) :
    loopComparison? (.symbol (BinaryOp.comparison op).symbol) = some op := by
  rcases h with rfl | rfl <;> rfl

theorem leads_forCondition (t : ForConditionTree) (hl : t.levels ≤ room) (hs : t.Settled) :
    (rules limit room).forCondition?.Leads t.terminals (.symbol .semicolon)
      (pure t.abstract) := by
  have hname : ∀ (x : String) (l : TokenKind),
      (rules limit room).forCondition?.Leads [.ofName x] l
        ((rules limit room).forComparison ⟨x, none⟩) := by
    refine fun x l ↦ leads_branch (fun t ht ↦ ?_) l
    obtain ⟨hkind, htext⟩ := Token.isName_of_terminal ht
    rw [if_pos hkind, htext]
  cases t with
  | nothing =>
    refine (leads_branch_otherwise fun t ht ↦ ?_).stop (leads_conditionEnd none)
    exact if_neg (by rw [ht]; simp)
  | name x =>
    refine (hname x _).stop ((leads_branch_otherwise fun t ht ↦ ?_).stop (leads_conditionEnd _))
    rw [ht]
    rfl
  | compare x op h bound =>
    have hop : ∀ t : Token, t.terminal = .ofSymbol (BinaryOp.comparison op).symbol →
        (loopComparison? t.kind).map ((rules limit room).forBound ⟨x, none⟩) =
          some ((rules limit room).forBound ⟨x, none⟩ op) := by
      intro t ht
      rw [Token.kind_of_terminal ht, Terminal.ofSymbol, loopComparison?_symbol h, Option.map_some]
    refine (hname x _).cons ((leads_branch hop _).cons ?_)
    exact ((bound.readBy limit hl hs).stop (by decide)).map_pure _

/-- Where no step of a name is written, none is found. -/
theorem steppedName?_eq_none {used rest : List Token} {k : TokenKind} {x : Terminal}
    {u : List Terminal} (hu : used.map Token.terminal = x :: u) (hk : (front rest).kind = k)
    (hstep : stepOp? k = none) (h : ¬ startsWithStep (x :: u)) :
    steppedName? (used ++ rest) = none := by
  obtain ⟨t, used, rfl, rfl, hused⟩ := List.map_eq_cons_iff.1 hu
  rw [List.cons_append]
  cases u with
  | nil =>
    rw [List.map_eq_nil_iff] at hused
    subst hused
    rw [List.nil_append]
    cases rest with
    | nil => rfl
    | cons s rest =>
      have hs : stepOp? s.kind = none := by rw [← hstep, ← hk]; rfl
      simp [steppedName?, hs]
  | cons y u =>
    obtain ⟨s, used, rfl, rfl, hused⟩ := List.map_eq_cons_iff.1 hused
    rw [List.cons_append, steppedName?]
    split
    · rename_i hkind
      simp only [startsWithStep, Token.terminal, hkind] at h
      rw [stepOp?.eq_def]
      split <;> simp_all
    · rfl

theorem leads_forIncrement (t : ForIncrementTree) (hl : t.levels ≤ room) (hs : t.Settled) :
    (rules limit room).forIncrement?.Leads t.terminals (.symbol .closeParen)
      (pure t.abstract) := by
  intro used rest hu hk
  have hfront := kind_front_append hu hk
  cases t with
  | nothing =>
    rw [ForIncrementTree.terminals, List.map_eq_nil_iff] at hu
    subst hu
    rw [forIncrement?]
    exact if_pos hfront
  | step x op =>
    obtain ⟨t, used, rfl, ht, hused⟩ := List.map_eq_cons_iff.1 hu
    obtain ⟨s, rfl, hs⟩ := List.map_eq_singleton_iff.1 hused
    have hstepped : steppedName? (t :: s :: rest) =
        some (.unary op (some (.identifier ⟨x, none⟩)), rest) := by
      obtain ⟨hkind, htext⟩ := Token.isName_of_terminal ht
      rw [steppedName?, if_pos hkind, Token.kind_of_terminal hs, htext]
      cases op <;> rfl
    rw [forIncrement?, if_neg]
    · rw [List.cons_append, List.singleton_append, hstepped]
      rfl
    · rw [hfront]
      simp [ForIncrementTree.terminals, Terminal.ofName]
  | expr e =>
    have hfirst := e.startsExpr_firstKind (by simp) (.symbol .closeParen)
    have hnone : steppedName? (used ++ rest) = none := by
      cases hterm : e.terminals with
      | nil =>
        rw [hterm] at hfirst
        exact absurd hfirst (by decide)
      | cons x u => exact steppedName?_eq_none (hu.trans hterm) hk rfl (hterm ▸ hs.2)
    rw [forIncrement?, if_neg, hnone]
    · exact ((e.leads_expr hl hs.1 rfl).map_pure some) used rest hu hk
    · rw [hfront]
      intro h
      rw [ForIncrementTree.terminals] at h
      rw [h] at hfirst
      exact absurd hfirst (by decide)

end Rules

/-! ## The induction -/

/-- The rules `R` read this tree in front of a token of kind `k`, if a tree of its form may stand
there.  Of a form that starts with a fixed token, the rule behind that token is what counts. -/
def StmtTree.ReadBy (R : Rules) (k : TokenKind) : {c : StmtForm} → StmtTree c → Prop
  | .statement, t => k ≠ .keyword .elseWord → R.statement.Leads t.terminals k (pure t.abstract)
  | .nested, t => k ≠ .keyword .elseWord → R.stmt.Leads t.terminals k (pure t.abstract)
  | .body, t => k ≠ .keyword .elseWord → ∀ stop : TokenKind → Bool,
      (∀ l : TokenKind, l.startsStmt → stop l = false) →
        (manyUntil stop R.stmt R.stmt_shrinks).Leads t.terminals k
          (manyUntilFrom stop R.stmt R.stmt_shrinks t.abstract.reverse)
  | .block, t => ∃ u, t.terminals = .ofSymbol .openBrace :: u ∧
      R.blockBody.Leads u k (pure t.abstract)
  | .conditional, t => k ≠ .keyword .elseWord → ∃ u, t.terminals = .ofKeyword .ifWord :: u ∧
      R.ifElse.Leads u k (pure t.abstract)
  | .elseIf, t => k ≠ .keyword .elseWord → R.elseIf.Leads t.terminals k (pure t.abstract)
  | .elsePart, t => k ≠ .keyword .elseWord → R.elseBranch?.Leads t.terminals k (pure t.abstract)
  | .caseBody, t => R.caseBody.Leads t.terminals k (pure t.abstract)
  | .cases, t => (manyAfter (.keyword .caseWord) R.caseClause R.keeps_caseClause []).Leads
      t.terminals k
      (manyAfter (.keyword .caseWord) R.caseClause R.keeps_caseClause t.abstract.reverse)
  | .defaultPart, t => k ≠ .keyword .defaultWord →
      R.defaultClause?.Leads t.terminals k (pure t.abstract)

namespace Rules

variable {R : Rules} {k : TokenKind}

/-- Of the first token of a statement only the kind matters. -/
theorem statementRule?_of_kind {t u : Token} (h : t.kind = u.kind) :
    R.statementRule? t = R.statementRule? u := by
  rw [statementRule?, statementRule?, h]

/-- A statement by the rule that its first token selects. -/
theorem leads_statement {x : Terminal} {q : Parser Stmt}
    (h : R.statementRule? ⟨x.kind, x.text, ⟨0, 0⟩⟩ = some q) : R.statement.Leads [x] k q := by
  refine leads_branch (fun t ht ↦ ?_) k
  rw [← h]
  exact statementRule?_of_kind (Token.kind_of_terminal ht)

/-- A declaration is read back as a statement. -/
theorem leads_declarationStatement {limit room : Nat} (d : DeclarationTree) (hl : d.levels ≤ room)
    (hs : d.Settled) : (rules limit room).statement.Leads d.terminals k (pure d.abstract) := by
  obtain ⟨type?, u, hu, hd⟩ := leads_declaration d hl hs
  rw [hu]
  refine (leads_statement ?_).cons hd
  cases type? <;> rfl

/-- What starts expressions selects no rule for statements. -/
theorem statementRule?_eq_none {t : Token} (h : t.kind.startsExpr) : R.statementRule? t = none := by
  rw [statementRule?.eq_def]
  cases hkind : t.kind with
  | symbol s => cases s <;> simp_all [TokenKind.startsExpr]
  | keyword w => cases w <;> simp_all [TokenKind.startsExpr]
  | _ => simp_all [TokenKind.startsExpr]

/-- A block with its braces, from what is read behind the first of them. -/
theorem leads_block {b : StmtTree .block} (h : b.ReadBy R k) :
    R.block.Leads b.terminals k (pure b.abstract) := by
  obtain ⟨u, hu, hbody⟩ := h
  rw [hu]
  exact (leads_expect .blockOpen rfl _ _).cons hbody

end Rules

/-- A list of statements, up to a token that ends it. -/
theorem StmtTree.ReadBy.leads_body {R : Rules} {k : TokenKind} {ss : StmtTree .body}
    (h : ss.ReadBy R k) (hk : k ≠ .keyword .elseWord) (stop : TokenKind → Bool)
    (hstop : ∀ l, stop l → ¬ l.startsStmt) (hstopk : stop k) :
    (manyUntil stop R.stmt R.stmt_shrinks).Leads ss.terminals k (pure ss.abstract) := by
  have hbody := (h hk stop fun l hl ↦ by simpa [hl] using mt (hstop l)).stop
    (leads_manyUntilFrom_stop hstopk)
  rwa [List.reverse_reverse] at hbody

/-! ## Form by form -/

/-- Rules that have room for the tree read it from its terminals, if its `return`s keep their
distance. -/
def StmtTree.ReadBack (limit : Nat) {c : StmtForm} (t : StmtTree c) : Prop :=
  ∀ ⦃room : Nat⦄ ⦃k : TokenKind⦄, t.levels ≤ room → t.Settled → t.ReadBy (rules limit room) k

namespace StmtTree.ReadBack

open Rules

variable {limit : Nat}

theorem function (x : String) (ps : List ParameterTree) {body : StmtTree .block}
    (hbody : body.ReadBack limit) : (StmtTree.function x ps body).ReadBack limit := by
  intro room k hl hs _
  refine (leads_statement rfl).cons ?_
  refine (leads_expect_name x _ _).cons ((leads_expect .parametersOpen rfl _ _).cons ?_)
  refine ((leads_parameters ps).bind_pure _).trans ?_
  refine (leads_expect .parametersClose rfl _ _).cons ?_
  exact (leads_block (hbody hl hs)).bind_pure _

theorem whileLoop (e : ExprTree .whole) {body : StmtTree .block} (hbody : body.ReadBack limit) :
    (StmtTree.whileLoop e body).ReadBack limit := by
  intro room k hl hs _
  obtain ⟨hle, hlbody⟩ := Nat.max_le.1 hl
  refine (leads_statement rfl).cons ?_
  exact leads_condition rfl e hle hs.1 ((leads_block (hbody hlbody hs.2)).bind_pure _)

theorem conditional {c : StmtTree .conditional} (hc : c.ReadBack limit) :
    (StmtTree.conditional c).ReadBack limit := by
  intro room k hl hs hk
  obtain ⟨u, hu, hread⟩ := hc hl hs hk
  rw [terminals, hu]
  exact (leads_statement rfl).cons hread

theorem forLoop (start : ForStartTree) (condition : ForConditionTree)
    (increment : ForIncrementTree) {body : StmtTree .block} (hbody : body.ReadBack limit) :
    (StmtTree.forLoop start condition increment body).ReadBack limit := by
  intro room k hl hs _
  obtain ⟨hstart, hl⟩ := Nat.max_le.1 hl
  obtain ⟨hcondition, hl⟩ := Nat.max_le.1 hl
  obtain ⟨hincrement, hlbody⟩ := Nat.max_le.1 hl
  obtain ⟨sstart, scondition, sincrement, sbody⟩ := hs
  refine (leads_statement rfl).cons ?_
  refine (leads_expect .forOpen rfl _ _).cons ?_
  refine ((leads_forInitializer start hstart sstart ?_).bind_pure _).trans ?_
  · intro d hd sd
    cases room with
    | zero => exact absurd hd (Nat.not_succ_le_zero _)
    | succ room => exact leads_declarationStatement d (Nat.le_of_succ_le_succ hd) sd
  · refine ((leads_forCondition condition hcondition scondition).bind_pure _).trans ?_
    refine (leads_expect .forConditionEnd rfl _ _).cons ?_
    refine ((leads_forIncrement increment hincrement sincrement).bind_pure _).trans ?_
    exact (leads_expect .forClose rfl _ _).cons ((leads_block (hbody hlbody sbody)).bind_pure _)

theorem switch (subject : ExprTree .whole) {cs : StmtTree .cases} {d : StmtTree .defaultPart}
    (hcs : cs.ReadBack limit) (hd : d.ReadBack limit) :
    (StmtTree.switch subject cs d).ReadBack limit := by
  intro room k hl hs _
  obtain ⟨hsubject, hl⟩ := Nat.max_le.1 hl
  obtain ⟨hlcs, hld⟩ := Nat.max_le.1 hl
  obtain ⟨ssubject, scs, sd⟩ := hs
  refine (leads_statement rfl).cons ?_
  refine leads_condition rfl subject hsubject ssubject ?_
  refine (leads_expect .casesOpen rfl _ _).cons ?_
  have hcases := @hcs _ (firstKind (d.terminals ++ [.ofSymbol .closeBrace]) k) hlcs scs
  have hstop : firstKind (d.terminals ++ [.ofSymbol .closeBrace]) k ≠ .keyword .caseWord := by
    cases d <;> simp [terminals, Terminal.ofKeyword, Terminal.ofSymbol]
  replace hcases := hcases.stop (leads_manyAfter_stop hstop)
  rw [List.reverse_reverse] at hcases
  refine (hcases.bind_pure _).trans (((hd hld sd ?_).bind_pure _).trans ?_)
  · simp [Terminal.ofSymbol]
  · exact leads_expect .casesClose rfl _ k

theorem block {b : StmtTree .block} (hb : b.ReadBack limit) :
    (StmtTree.block b).ReadBack limit := by
  intro room k hl hs _
  obtain ⟨u, hu, hbody⟩ := @hb _ k hl hs
  rw [terminals, hu]
  refine (leads_statement rfl).cons ?_
  exact hbody.map_pure _

theorem expr (e : ExprTree .whole) (semicolon : Bool) :
    (StmtTree.expr e semicolon).ReadBack limit := by
  intro room k hl hs _
  obtain ⟨se, rfl⟩ := hs
  refine (leads_branch_otherwise fun t ht ↦ ?_).look ?_
  · refine statementRule?_eq_none ?_
    rw [ht, terminals, firstKind_append]
    exact e.startsExpr_firstKind (by simp) _
  · exact ((e.leads_expr hl se rfl).bind_pure _).trans (leads_onKind rfl k)

theorem nested {s : StmtTree .statement} (h : s.ReadBack limit) :
    (StmtTree.nested s).ReadBack limit := by
  intro room k hl hs hk
  cases room with
  | zero => exact absurd hl (Nat.not_succ_le_zero _)
  | succ room => exact h (Nat.le_of_succ_le_succ hl) hs hk

theorem snoc {ss : StmtTree .body} {s : StmtTree .nested} (hss : ss.ReadBack limit)
    (h : s.ReadBack limit) : (StmtTree.snoc ss s).ReadBack limit := by
  intro room k hl hs hk stop hstop
  obtain ⟨hlss, hl⟩ := Nat.max_le.1 hl
  have hfirst := s.startsStmt_firstKind (by simp) k
  simp only [abstract, List.reverse_append, List.reverse_singleton, List.singleton_append]
  refine (hss hlss hs.1 ?_ stop hstop).trans (leads_manyUntilFrom (hstop _ hfirst) ?_)
  · intro h
    rw [h] at hfirst
    exact absurd hfirst (by decide)
  · exact h hl hs.2 hk

theorem braces {ss : StmtTree .body} (h : ss.ReadBack limit) :
    (StmtTree.braces ss).ReadBack limit := by
  intro room k hl hs
  have hbody := (h hl hs).leads_body (k := .symbol .closeBrace) (by simp)
    (fun k ↦ k = .symbol .closeBrace ∨ k = .eof) ?_ (by simp)
  · exact ⟨_, rfl, (hbody.bind_pure _).trans (leads_expect .blockClose rfl _ k)⟩
  · intro l hl
    rcases of_decide_eq_true hl with rfl | rfl <;> decide

theorem ifElse (e : ExprTree .whole) {thenBody : StmtTree .block} {elsePart : StmtTree .elsePart}
    (hthen : thenBody.ReadBack limit) (helse : elsePart.ReadBack limit) :
    (StmtTree.ifElse e thenBody elsePart).ReadBack limit := by
  intro room k hl hs hk
  obtain ⟨hle, hl⟩ := Nat.max_le.1 hl
  obtain ⟨hlthen, hlelse⟩ := Nat.max_le.1 hl
  refine ⟨_, rfl, leads_condition rfl e hle hs.1 ?_⟩
  refine ((leads_block (hthen hlthen hs.2.1)).bind_pure _).trans ?_
  exact (helse hlelse hs.2.2 hk).bind_pure _

theorem elseIf {c : StmtTree .conditional} (h : c.ReadBack limit) :
    (StmtTree.elseIf c).ReadBack limit := by
  intro room k hl hs hk
  cases room with
  | zero => exact absurd hl (Nat.not_succ_le_zero _)
  | succ room =>
    obtain ⟨u, hu, hc⟩ := h (Nat.le_of_succ_le_succ hl) hs hk
    rw [terminals, hu]
    exact (leads_onKind rfl _).cons hc

theorem elseBlock {b : StmtTree .block} (h : b.ReadBack limit) :
    (StmtTree.elseBlock b).ReadBack limit := by
  intro room k hl hs _
  refine (leads_onKind rfl _).cons (Leads.map_pure ((leads_kind _ _).look ?_) some)
  obtain ⟨u, hu, -⟩ := @h _ k hl hs
  rw [if_neg (by rw [hu]; simp [Terminal.ofSymbol])]
  exact leads_block (h hl hs)

theorem elseBranch {c : StmtTree .elseIf} (h : c.ReadBack limit) :
    (StmtTree.elseBranch c).ReadBack limit := by
  intro room k hl hs hk
  refine (leads_onKind rfl _).cons (Leads.map_pure ((leads_kind _ _).look ?_) some)
  rw [if_pos]
  · exact (h hl hs hk).bind_pure _
  · cases c with
    | elseIf c => cases c; rfl

theorem caseBody {ss : StmtTree .body} (h : ss.ReadBack limit) :
    (StmtTree.caseBody ss).ReadBack limit := by
  intro room k hl hs
  have hbody := (h hl hs).leads_body (k := .keyword .breakWord) (by simp)
    (fun k ↦ k = .keyword .breakWord ∨ k = .eof) ?_ (by simp)
  · refine (hbody.bind_pure _).trans ?_
    exact (leads_expect .caseBreak rfl _ _).cons (leads_expect .breakEnd rfl _ k)
  · intro l hl
    rcases of_decide_eq_true hl with rfl | rfl <;> decide

theorem addCase {cs : StmtTree .cases} (value : ExprTree .whole) {b : StmtTree .caseBody}
    (hcs : cs.ReadBack limit) (hb : b.ReadBack limit) :
    (StmtTree.addCase cs value b).ReadBack limit := by
  intro room k hl hs
  obtain ⟨hlcs, hl⟩ := Nat.max_le.1 hl
  obtain ⟨hvalue, hlb⟩ := Nat.max_le.1 hl
  simp only [ReadBy, abstract, List.reverse_append, List.reverse_singleton, List.singleton_append]
  refine (hcs hlcs hs.1).trans (leads_manyAfter rfl ?_)
  refine ((value.leads_expr hvalue hs.2.1 rfl).bind_pure _).trans ?_
  exact (leads_expect .caseColon rfl _ _).cons ((hb hlb hs.2.2).bind_pure _)

theorem default {b : StmtTree .caseBody} (h : b.ReadBack limit) :
    (StmtTree.default b).ReadBack limit := by
  intro room k hl hs _
  refine (leads_onKind rfl _).cons (Leads.map_pure ?_ some)
  exact (leads_expect .defaultColon rfl _ _).cons (h hl hs)

end StmtTree.ReadBack

open Rules in
/-- **Statements are read back.**  Rules that have room for a tree read it from its terminals, if
its `return`s keep their distance. -/
theorem StmtTree.readBy {c : StmtForm} (t : StmtTree c) (limit : Nat) : t.ReadBack limit := by
  induction t with
  | declaration d => exact fun _ _ hl hs _ ↦ leads_declarationStatement d hl hs
  | empty => exact fun _ _ _ _ _ ↦ leads_statement rfl
  | function x ps body ih => exact .function x ps ih
  | whileLoop e body ih => exact .whileLoop e ih
  | conditional c ih => exact .conditional ih
  | forLoop start condition increment body ih => exact .forLoop start condition increment ih
  | switch subject cs d ihcs ihd => exact .switch subject ihcs ihd
  | block b ih => exact .block ih
  | expr e semicolon => exact .expr e semicolon
  | nested s ih => exact .nested ih
  | nil => exact fun _ _ _ _ _ _ _ ↦ .refl _ _
  | snoc ss s ihs ih => exact .snoc ihs ih
  | braces ss ih => exact .braces ih
  | ifElse e thenBody elsePart ihthen ihelse => exact .ifElse e ihthen ihelse
  | elseIf c ih => exact .elseIf ih
  | noElse => exact fun _ _ _ _ hk ↦ leads_onKind_otherwise hk
  | elseBlock b ih => exact .elseBlock ih
  | elseBranch c ih => exact .elseBranch ih
  | caseBody ss ih => exact .caseBody ih
  | noCases => exact fun _ _ _ _ ↦ .refl _ _
  | addCase cs value b ihcs ih => exact .addCase value ihcs ih
  | noDefault => exact fun _ _ _ _ hk ↦ leads_onKind_otherwise hk
  | default b ih => exact .default ih

end SvLang
