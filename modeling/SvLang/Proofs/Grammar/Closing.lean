import SvLang.Proofs.Grammar.Soundness
import SvLang.Proofs.Grammar.Starts
import SvLang.Proofs.Grammar.Verdict

/-!
# Where statements end

A parser that succeeds has looked at the token behind those that it takes.  Most statements do not
need that look: they end with a semicolon or a brace of their own.  What stands behind a statement
can become a part of it in two ways only.  An `else` continues an `if`; and an expression that has
no semicolon is continued by an operator, a parenthesis, a value to return, or the semicolon itself.
But then the last token of the expression is neither a semicolon nor a brace.

So behind statements whose last token is one of these, other statements can be written
(`parseWithin_append`), because no statement starts with `else`.

## What is here

* `Parser.Closed`: what stands behind is of no account, unless it is an `else`; `Parser.Ends` for
  closed parsers that take at least one token.  Sequences hand this on: `Parser.Closed.bind`, and
  `Parser.Decided.bind_ends` where only the last part is closed.
* `Parser.Sealed`: the same if the last token that is taken closes a statement.  Every statement is
  sealed (`Rules.sealed_stmt`), and so is a loop over statements (`Parser.manyUntilFrom_append`).
-/

set_option autoImplicit false

namespace SvLang

open SvLang.Parser

/-- Whether a statement that ends with a token of this kind is complete. -/
def TokenKind.closesStmt : TokenKind → Bool
  | symbol .semicolon | symbol .closeBrace => true
  | _ => false

/-- The last token closes a statement, if there is one. -/
def EndsClosed (ts : List Token) : Prop := ∀ t ∈ ts.getLast?, t.kind.closesStmt

theorem agree_zero_of_front_eq {us ts : List Token} (h : front us = front ts) : Agree 0 us ts := by
  intro i hi
  obtain rfl : i = 0 := Nat.le_zero.1 hi
  rw [← front_eq_tokenAt, ← front_eq_tokenAt, h]

/-! ## Closed parsers -/

namespace Parser

variable {α β : Type} {p : Parser α} {f : α → Parser β} {used rest rest' : List Token} {a : α}

namespace Decided

/-- A parser that is decided does the same in front of the same token. -/
theorem of_front_eq (h : p.Decided) (hp : p (used ++ rest) = .ok (a, rest))
    (hfront : front rest' = front rest) : p (used ++ rest') = .ok (a, rest') := by
  obtain ⟨used', hused, -, hok⟩ := (h _).ok a rest hp
  obtain rfl := List.append_cancel_right hused
  exact hok rest' (agree_zero_of_front_eq hfront)

theorem keeps (h : p.Decided) : p.Keeps := by
  intro ts a rest hp
  obtain ⟨used, rfl, -⟩ := (h ts).ok a rest hp
  simp

/-- A sequence takes what its first part takes, and then what its second part takes. -/
theorem exists_of_bind (hp : p.Decided) (hf : ∀ a, (f a).Decided) {b : β}
    (h : (p >>= f) (used ++ rest) = .ok (b, rest)) :
    ∃ a first second, used = first ++ second ∧
      p (first ++ (second ++ rest)) = .ok (a, second ++ rest) ∧
      f a (second ++ rest) = .ok (b, rest) := by
  obtain ⟨a, middle, h₁, h₂⟩ := bind_eq_ok.1 h
  obtain ⟨first, hfirst, -⟩ := (hp _).ok a middle h₁
  obtain ⟨second, rfl, -⟩ := (hf a _).ok b rest h₂
  rw [hfirst] at h₁
  rw [← List.append_assoc] at hfirst
  exact ⟨a, first, second, List.append_cancel_right hfirst, h₁, h₂⟩

theorem bind_decided (hp : p.Decided) (hf : ∀ a, (f a).Decided) : (p >>= f).Decided :=
  fun ts ↦ (hp ts).bind fun a rest _ ↦ hf a rest

end Decided

theorem decided_expect (place : Landmark) : (expect place).Decided :=
  localCongruence_decided.expect place

theorem congruence_decided : Congruence fun _ p _ ↦ p.Decided := localCongruence_decided.congruence

theorem compositional_decided : Compositional fun _ p _ ↦ p.Decided :=
  congruence_decided.toCompositional

theorem decided_onKind {k : TokenKind} (hk : k ≠ .eof) {rule otherwise : Parser α}
    (hr : rule.Decided) (ho : otherwise.Decided) : (onKind k rule otherwise).Decided :=
  @Compositional.onKind _ compositional_decided _ _ hk rule rule otherwise otherwise hr ho

theorem decided_manyUntil {stop : TokenKind → Bool} {item : Parser α} {hi : item.Shrinks}
    (h : item.Decided) : (manyUntil stop item hi).Decided :=
  @LocalCongruence.manyUntil _ localCongruence_decided _ stop item item hi hi h

theorem decided_manyAfter {lead : TokenKind} (hlead : lead ≠ .eof) {item : Parser α}
    {hi : item.Keeps} (h : item.Decided) (done : List α) :
    (manyAfter lead item hi done).Decided :=
  @Compositional.manyAfter _ compositional_decided _ _ hlead item item hi hi h done

theorem decided_listUntil {close : TokenKind} {item : Parser α} {hi : item.Keeps}
    (h : item.Decided) : (listUntil close item hi).Decided :=
  @Compositional.listUntil _ compositional_decided _ close item item hi hi h

/-- What the parser does is decided by what it takes: the token behind it is of no account, unless
it is an `else`. -/
structure Closed (p : Parser α) : Prop where
  decided : p.Decided
  ok : ∀ used rest a, p (used ++ rest) = .ok (a, rest) →
    ∀ rest', (front rest').kind ≠ .keyword .elseWord → p (used ++ rest') = .ok (a, rest')

/-- The parser is closed, and takes at least one token. -/
structure Ends (p : Parser α) : Prop where
  closed : p.Closed
  shrinks : p.Shrinks

theorem pure_eq_ok {a b : α} : (pure a : Parser α) (used ++ rest) = .ok (b, rest) ↔
    a = b ∧ used = [] := by
  rw [pure_apply, Except.ok.injEq, Prod.mk.injEq, List.append_left_eq_self]

theorem closed_pure (a : α) : (pure a : Parser α).Closed := by
  refine ⟨decided_pure a, fun used rest b h rest' _ ↦ ?_⟩
  obtain ⟨rfl, rfl⟩ := pure_eq_ok.1 h
  rfl

/-- A parser that never succeeds takes nothing that could be continued. -/
theorem ends_of_refuses (hp : p.Decided) (h : ∀ ts r, p ts ≠ .ok r) : p.Ends :=
  ⟨⟨hp, fun _ _ _ hok ↦ absurd hok (h _ _)⟩, fun _ _ _ hok ↦ absurd hok (h _ _)⟩

/-- A token that has to stand at a place is all that is taken. -/
theorem ends_expect (place : Landmark) : (expect place).Ends := by
  refine ⟨⟨decided_expect place, fun used rest a h rest' _ ↦ ?_⟩, shrinks_expect place⟩
  cases used with
  | nil =>
    have hlt := shrinks_expect place _ _ _ h
    simp at hlt
  | cons t used =>
    rw [List.cons_append, expect] at h ⊢
    by_cases ht : t.kind = place.kind
    · rw [if_pos ht, Except.ok.injEq, Prod.mk.injEq, List.append_left_eq_self] at h
      obtain ⟨rfl, rfl⟩ := h
      exact if_pos ht
    · rw [if_neg ht] at h
      cases h

/-- One closed part after another. -/
theorem Closed.bind (hp : p.Closed) (hf : ∀ a, (f a).Closed) : (p >>= f).Closed := by
  refine ⟨hp.decided.bind_decided fun a ↦ (hf a).decided, fun used rest b h rest' hrest' ↦ ?_⟩
  obtain ⟨a, first, second, rfl, h₁, h₂⟩ :=
    hp.decided.exists_of_bind (fun a ↦ (hf a).decided) h
  rw [List.append_assoc, bind_eq_ok]
  refine ⟨a, second ++ rest', ?_, (hf a).ok second rest b h₂ rest' hrest'⟩
  -- If the second part takes nothing, the first part is the one that is followed by something else.
  cases second with
  | nil => exact hp.ok first rest a h₁ rest' hrest'
  | cons t second => exact hp.decided.of_front_eq h₁ rfl

/-- A sequence is closed if its second part is, and takes something. -/
theorem Decided.bind_ends (hp : p.Decided) (hf : ∀ a, (f a).Ends) : (p >>= f).Ends := by
  have hdecided : ∀ a, (f a).Decided := fun a ↦ (hf a).closed.decided
  refine ⟨⟨hp.bind_decided hdecided, fun used rest b h rest' hrest' ↦ ?_⟩,
    hp.keeps.bind_shrinks fun a ↦ (hf a).shrinks⟩
  obtain ⟨a, first, second, rfl, h₁, h₂⟩ := hp.exists_of_bind hdecided h
  rw [List.append_assoc, bind_eq_ok]
  refine ⟨a, second ++ rest', ?_, (hf a).closed.ok second rest b h₂ rest' hrest'⟩
  cases second with
  | nil =>
    have hlt := (hf a).shrinks _ _ _ h₂
    simp at hlt
  | cons t second => exact hp.of_front_eq h₁ rfl

theorem Ends.bind (hp : p.Ends) (hf : ∀ a, (f a).Closed) : (p >>= f).Ends :=
  ⟨hp.closed.bind hf, hp.shrinks.bind fun a ↦ (hf a).decided.keeps⟩

theorem Ends.bind_pure (hp : p.Ends) (g : α → β) : (p >>= fun a ↦ pure (g a)).Ends :=
  hp.bind fun _ ↦ closed_pure _

theorem Closed.map (hp : p.Closed) (g : α → β) : (g <$> p).Closed := by
  rw [map_eq_pure_bind]
  exact hp.bind fun _ ↦ closed_pure _

/-- A choice by the kind of the front token, one of whose sides has to take something. -/
theorem ends_onKind {k : TokenKind} (hk : k ≠ .eof) {rule otherwise : Parser α} (hr : rule.Closed)
    (ho : otherwise.Ends) : (onKind k rule otherwise).Ends := by
  have hshrinks := shrinks_onKind (k := k) hr.decided.keeps ho.shrinks
  refine ⟨⟨decided_onKind hk hr.decided ho.closed.decided, fun used rest a h rest' hrest' ↦ ?_⟩,
    hshrinks⟩
  cases used with
  | nil =>
    have hlt := hshrinks _ _ _ h
    simp at hlt
  | cons t used =>
    rw [List.cons_append, onKind] at h ⊢
    by_cases ht : t.kind = k
    · rw [branch_of_some (if_pos ht)] at h ⊢
      exact hr.ok used rest a h rest' hrest'
    · rw [branch_of_none (if_neg ht)] at h ⊢
      exact ho.closed.ok (t :: used) rest a h rest' hrest'

/-- A choice that goes by an `else`, and is content without. -/
theorem closed_onElse {rule : Parser α} (hr : rule.Closed) (b : α) :
    (onKind (.keyword .elseWord) rule (pure b)).Closed := by
  refine ⟨decided_onKind (by decide) hr.decided (decided_pure b), ?_⟩
  intro used rest a h rest' hrest'
  rw [onKind] at h ⊢
  by_cases hfront : (front (used ++ rest)).kind = .keyword .elseWord
  · obtain ⟨t, ts, hts, ht⟩ := exists_cons_of_front (by rw [hfront]; decide)
    rw [ht] at hfront
    rw [hts, branch_of_some (if_pos hfront)] at h
    cases used with
    | nil =>
      have hle := hr.decided.keeps _ _ _ h
      rw [show rest = t :: ts from hts] at hle
      exact absurd hle (Nat.not_succ_le_self _)
    | cons u used =>
      obtain ⟨rfl, rfl⟩ := List.cons.inj hts
      rw [List.cons_append, branch_of_some (if_pos hfront)]
      exact hr.ok used rest a h rest' hrest'
  · -- Nothing is taken, and behind `rest'` there is no `else` to be taken either.
    rw [branch_of_none (if_neg hfront)] at h
    obtain ⟨rfl, rfl⟩ := pure_eq_ok.1 h
    rw [List.nil_append, branch_of_none (if_neg hrest')]
    rfl

end Parser

/-! ## The rules of statements -/

namespace Rules

variable {R : Rules}

theorem ends_declarationEnd (name : String) : (declarationEnd name).Ends := by
  refine ends_onKind (by decide) (closed_pure _) (ends_of_refuses ?_ nofun)
  exact compositional_decided.missingSemicolon name

section

variable (hR : Related (fun _ p _ ↦ p.Decided) R R)

include hR

theorem closed_initialized (name : String) (type? : Option TypeName) :
    (R.initialized name type?).Closed :=
  (Decided.bind_ends hR.expr fun _ ↦ (ends_declarationEnd name).bind_pure _).closed

theorem closed_arrayElements (name : String) (type? : Option TypeName) :
    (R.arrayElements name type?).Closed := by
  refine (ends_expect _).closed.bind fun _ ↦ (ends_expect _).closed.bind fun _ ↦
    (ends_expect _).closed.bind fun _ ↦ ?_
  refine (Decided.bind_ends (decided_listUntil hR.expr) fun _ ↦ ?_).closed
  exact (ends_expect _).bind fun _ ↦ ((ends_declarationEnd name).bind_pure _).closed

theorem closed_declaration (type? : Option TypeName) : (R.declaration type?).Closed := by
  refine (ends_expect _).closed.bind fun name ↦ ?_
  refine (ends_onKind (by decide) (closed_initialized hR name type?) ?_).closed
  refine ends_onKind (by decide) (closed_arrayElements hR name type?) ?_
  exact (ends_declarationEnd name).bind_pure _

theorem ends_blockBody : R.blockBody.Ends :=
  (decided_manyUntil hR.stmt).bind_ends fun _ ↦ (ends_expect _).bind_pure _

theorem ends_block : R.block.Ends := (ends_expect _).bind fun _ ↦ (ends_blockBody hR).closed

theorem closed_function : R.function.Closed := by
  refine (ends_expect _).closed.bind fun _ ↦ (ends_expect _).closed.bind fun _ ↦ ?_
  refine (Decided.bind_ends (decided_listUntil ?_) fun _ ↦ (ends_expect _).bind fun _ ↦ ?_).closed
  · exact Inner.parameter compositional_decided
  · exact ((ends_block hR).bind_pure _).closed

theorem closed_whileLoop : R.whileLoop.Closed :=
  (Decided.bind_ends (hR.inner.condition compositional_decided _) fun _ ↦
    (ends_block hR).bind_pure _).closed

theorem closed_forLoop : R.forLoop.Closed := by
  have hprimary := hR.primary congruence_decided
  refine (ends_expect _).closed.bind fun _ ↦ Ends.closed ?_
  refine Decided.bind_ends (hR.inner.forInitializer? compositional_decided) fun _ ↦ ?_
  refine Decided.bind_ends (Inner.forCondition? (S := R) compositional_decided hprimary) fun _ ↦ ?_
  refine Decided.bind_ends (decided_expect _) fun _ ↦ ?_
  refine Decided.bind_ends (decided_forIncrement? hR.expr) fun _ ↦ ?_
  exact (ends_expect _).bind fun _ ↦ ((ends_block hR).bind_pure _).closed

theorem closed_switch : R.switch.Closed := by
  refine (Decided.bind_ends (hR.inner.condition compositional_decided _) fun _ ↦ ?_).closed
  refine Decided.bind_ends (decided_expect _) fun _ ↦ ?_
  refine Decided.bind_ends (decided_manyAfter (by decide) ?_ _) fun _ ↦ ?_
  · exact hR.inner.caseClause compositional_decided
  · exact Decided.bind_ends (hR.inner.defaultClause? compositional_decided) fun _ ↦
      (ends_expect _).bind_pure _

/-- What follows the word `else` is closed, if the `if` is that may stand there. -/
theorem ends_elseBranch (hif : R.elseIf.Closed) : R.elseBranch.Ends := by
  refine Decided.bind_ends decided_kind fun k ↦ ?_
  by_cases hk : k = .keyword .ifWord
  · rw [if_pos hk]
    exact Ends.bind_pure ⟨hif, R.elseIf_shrinks⟩ _
  · rw [if_neg hk]
    exact ends_block hR

theorem closed_ifElse (hif : R.elseIf.Closed) : R.ifElse.Closed := by
  refine (Decided.bind_ends (hR.inner.condition compositional_decided _) fun _ ↦ ?_).closed
  have helse : R.elseBranch?.Closed := closed_onElse ((ends_elseBranch hR hif).closed.map some) none
  exact (ends_block hR).bind fun _ ↦ helse.bind fun _ ↦ closed_pure _

end

/-- An `if` behind an `else` is closed, on every level. -/
theorem closed_elseIf (limit room : Nat) : (rules limit room).elseIf.Closed := by
  induction room with
  | zero => exact (ends_of_refuses (decided_rules limit 0).elseIf (by rintro ts r ⟨⟩)).closed
  | succ room ih =>
    have hR := decided_rules limit room
    refine (ends_onKind (by decide) (closed_ifElse hR ih) (ends_of_refuses ?_ ?_)).closed
    · exact congruence_decided.unexpected
    · rintro ts r ⟨⟩

/-- Every statement whose first token decides its form is closed behind that token. -/
theorem closed_statementRule? {limit room : Nat} {t : Token} {rule : Parser Stmt}
    (h : (rules limit room).statementRule? t = some rule) : rule.Closed := by
  have hR := decided_rules limit room
  rw [statementRule?.eq_def] at h
  split at h <;> cases h
  · exact closed_declaration hR _
  · exact closed_declaration hR _
  · exact closed_pure _
  · exact closed_function hR
  · exact closed_whileLoop hR
  · exact closed_ifElse hR (closed_elseIf limit room)
  · exact closed_forLoop hR
  · exact closed_switch hR
  · exact (ends_blockBody hR).closed.map _

end Rules

/-! ## Expressions as statements -/

theorem BinaryOp.not_closesStmt_symbol (op : BinaryOp) :
    (TokenKind.symbol op.symbol).closesStmt = false := by
  cases op with
  | arithmetic op | assignment op | step op | comparison op => cases op <;> rfl

/-- An expression holds neither a semicolon nor a brace. -/
theorem ExprTree.not_closesStmt {c : ExprForm} (t : ExprTree c) :
    ∀ x ∈ t.terminals, x.kind.closesStmt = false := by
  have hstep : ∀ op : StepOp, (TokenKind.symbol op.symbol).closesStmt = false := fun op ↦
    BinaryOp.not_closesStmt_symbol (.step op)
  induction t with
  | binary | stepBefore | stepBehind =>
    simp_all [terminals, Terminal.ofSymbol, or_imp, BinaryOp.not_closesStmt_symbol]
  | _ => simp_all [terminals, Terminal.ofSymbol, Terminal.ofName, Terminal.ofKeyword, or_imp,
      TokenKind.closesStmt]

/-- The parser is decided, and if the last token that it takes closes a statement, the token behind
is of no account, unless it is an `else`. -/
structure Parser.Sealed {α : Type} (p : Parser α) : Prop where
  decided : p.Decided
  ok : ∀ used rest a, p (used ++ rest) = .ok (a, rest) → EndsClosed used →
    ∀ rest', (front rest').kind ≠ .keyword .elseWord → p (used ++ rest') = .ok (a, rest')

namespace Rules

/-- What is read as an expression does not end closed. -/
theorem not_endsClosed_of_expr {limit room : Nat} {used rest : List Token} {e : Expr}
    (h : (rules limit room).expr (used ++ rest) = .ok (e, rest)) : ¬ EndsClosed used := by
  intro hclosed
  obtain ⟨used', hused, t, -, ht, -⟩ := (sound_rules limit room).expr _ _ _ h
  obtain rfl := List.append_cancel_right hused
  have hlt := (rules limit room).expr_shrinks _ _ _ h
  cases hlast : used.getLast? with
  | none =>
    obtain rfl := List.getLast?_eq_none_iff.1 hlast
    simp at hlt
  | some x =>
    have hx : x.terminal ∈ t.terminals := by
      rw [ht]
      exact List.mem_map_of_mem (List.mem_of_getLast? hlast)
    have hopen : x.kind.closesStmt = false := t.not_closesStmt _ hx
    rw [hclosed x hlast] at hopen
    cases hopen

theorem sealed_exprStatement (limit room : Nat) : (rules limit room).exprStatement.Sealed := by
  have hR := decided_rules limit room
  have hend : ∀ e : Expr, (onKind (.symbol .semicolon) (pure (.expr e)) (pure (.expr e)) :
      Parser Stmt).Decided := fun e ↦
    decided_onKind (by decide) (decided_pure _) (decided_pure _)
  have hdecided := Inner.exprStatement (S := rules limit room) compositional_decided hR.expr
  refine ⟨hdecided, fun used rest s h hclosed rest' _ ↦ ?_⟩
  rw [exprStatement] at h ⊢
  obtain ⟨e, first, second, rfl, h₁, h₂⟩ := Decided.exists_of_bind hR.expr hend h
  cases second with
  | nil =>
    rw [List.append_nil] at hclosed
    exact absurd hclosed (not_endsClosed_of_expr h₁)
  | cons t second =>
    rw [List.append_assoc, bind_eq_ok]
    refine ⟨e, t :: second ++ rest', Decided.of_front_eq hR.expr h₁ rfl, ?_⟩
    rw [List.cons_append, onKind] at h₂ ⊢
    by_cases ht : t.kind = .symbol .semicolon
    · rw [branch_of_some (if_pos ht)] at h₂ ⊢
      obtain ⟨rfl, rfl⟩ := pure_eq_ok.1 h₂
      rfl
    · rw [branch_of_none (if_neg ht)] at h₂
      rw [← List.cons_append] at h₂
      cases (pure_eq_ok.1 h₂).2

/-- **Every statement is sealed.** -/
theorem sealed_stmt (limit room : Nat) : (rules limit room).stmt.Sealed := by
  refine ⟨(decided_rules limit room).stmt, fun used rest s h hclosed rest' hrest' ↦ ?_⟩
  have hlt := (rules limit room).stmt_shrinks _ _ _ h
  cases used with
  | nil => simp at hlt
  | cons t used =>
    cases room with
    | zero => cases h
    | succ room =>
      have h : (rules limit room).statement (t :: (used ++ rest)) = .ok (s, rest) := h
      show (rules limit room).statement (t :: (used ++ rest')) = .ok (s, rest')
      rw [statement] at h ⊢
      cases hrule : (rules limit room).statementRule? t with
      | some rule =>
        rw [branch_of_some hrule] at h ⊢
        exact (closed_statementRule? hrule).ok used rest s h rest' hrest'
      | none =>
        rw [branch_of_none hrule] at h ⊢
        exact (sealed_exprStatement limit room).ok (t :: used) rest s h hclosed rest' hrest'

end Rules

/-! ## Statements behind statements -/

namespace Parser

variable {α : Type} {stop : TokenKind → Bool} {item : Parser α} {hi : item.Shrinks}
  {done as : List α} {ts rest : List Token}

/-- A loop over sealed items goes on behind them with whatever stands there. -/
theorem manyUntilFrom_append (h : item.Sealed)
    (hrun : manyUntilFrom stop item hi done ts = .ok (as, rest)) :
    ∃ used, ts = used ++ rest ∧ (EndsClosed used →
      ∀ rest', (front rest').kind ≠ .keyword .elseWord →
        manyUntilFrom stop item hi done (used ++ rest') =
          manyUntilFrom stop item hi as.reverse rest') := by
  fun_induction manyUntilFrom stop item hi done ts with
  | case1 done ts =>
    cases hrun
    exact ⟨[], rfl, fun _ rest' _ ↦ by rw [List.nil_append, List.reverse_reverse]⟩
  | case2 => cases hrun
  | case3 done ts hstop a middle ha hlt ih =>
    obtain ⟨first, rfl, -⟩ := (h.decided _).ok _ _ ha
    obtain ⟨second, rfl, hsecond⟩ := ih hrun
    refine ⟨first ++ second, by rw [List.append_assoc], fun hclosed rest' hrest' ↦ ?_⟩
    have hitem : item (first ++ (second ++ rest')) = .ok (a, second ++ rest') := by
      cases second with
      | nil => exact h.ok first rest a ha (by rwa [List.append_nil] at hclosed) rest' hrest'
      | cons t second => exact h.decided.of_front_eq ha rfl
    have hfront : front (first ++ (second ++ rest')) = front (first ++ (second ++ rest)) := by
      cases first with
      | nil => simp at hlt
      | cons t first => rfl
    have hlast : EndsClosed second := by
      intro t ht
      refine hclosed t ?_
      rw [List.getLast?_append, Option.mem_def.1 ht]
      rfl
    rw [List.append_assoc, manyUntilFrom_of_ok (by rwa [hfront]) hitem]
    exact hsecond hlast rest' hrest'

/-- What has been done before only stands in front of what is still to come. -/
theorem manyUntilFrom_done (hrun : manyUntilFrom stop item hi done ts = .ok (as, rest))
    (before : List α) :
    manyUntilFrom stop item hi (done ++ before) ts = .ok (before.reverse ++ as, rest) := by
  fun_induction manyUntilFrom stop item hi done ts with
  | case1 done ts hstop =>
    cases hrun
    rw [manyUntilFrom_eq, if_pos hstop, List.reverse_append]
  | case2 => cases hrun
  | case3 done ts hstop a middle ha _ ih =>
    rw [manyUntilFrom_of_ok hstop ha]
    exact ih hrun

end Parser

/-- What statements start with, one behind the other: nothing, or what starts a statement. -/
theorem StmtTree.firstKind_body : ∀ (t : StmtTree .body) (k : TokenKind),
    firstKind t.terminals k = k ∨ (firstKind t.terminals k).startsStmt
  | .nil, _ => .inl rfl
  | .snoc ss s, k => by
    rw [terminals, firstKind_append]
    rcases firstKind_body ss (firstKind s.terminals k) with h | h
    · rw [h]
      exact .inr (s.startsStmt_firstKind (by simp) k)
    · exact .inr h

/-- No program starts with `else`. -/
theorem kind_front_ne_elseWord {limit : Nat} {ts : List Token} {p : Program}
    (h : parseWithin limit ts = .ok p) : (front ts).kind ≠ .keyword .elseWord := by
  intro helse
  obtain ⟨t, rest, rfl, ht⟩ := exists_cons_of_front (by rw [helse]; decide)
  rw [ht] at helse
  obtain ⟨tree, hterminals, -⟩ := exists_tree_of_parseWithin h
  have hfirst : firstKind tree.terminals .eof = t.kind := by
    rw [← hterminals, List.takeWhile_cons_of_pos (by simp [helse])]
    rfl
  have hbody := tree.firstKind_body .eof
  rw [hfirst, helse] at hbody
  revert hbody
  decide

/-- **Programs can be joined.**  If the last token of a program closes a statement, the tokens of
another program may stand behind it. -/
theorem parseWithin_append {limit : Nat} {us vs : List Token} {e : Token} {p q : Program}
    (hus : NoEnd us) (hclosed : EndsClosed us) (he : e.kind = .eof)
    (hp : parseWithin limit (us ++ [e]) = .ok p) (hq : parseWithin limit vs = .ok q) :
    parseWithin limit (us ++ vs) = .ok ⟨p.body ++ q.body⟩ := by
  obtain ⟨rest, hbody⟩ := parseWithin_eq_ok.1 hp
  obtain ⟨rest', hbody'⟩ := parseWithin_eq_ok.1 hq
  obtain ⟨used, hused, happend⟩ := manyUntilFrom_append (Rules.sealed_stmt limit limit) hbody
  -- The loop stops at the first token that ends the input, and that is `e`.
  obtain rfl : used = us := by
    have hdecided := (Rules.decided_rules limit limit).body congruence_decided
    obtain ⟨used', hused', hnoend, -⟩ := (hdecided _).ok _ _ hbody
    obtain rfl : used' = used := List.append_cancel_right (hused'.symm.trans hused)
    have hstop : (front rest).kind = .eof := of_decide_eq_true (stop_of_manyUntil hbody)
    rw [← takeWhile_kind_ne_eof hnoend hstop, ← hused]
    exact takeWhile_kind_ne_eof hus (show (front [e]).kind = .eof from he)
  refine parseWithin_eq_ok.2 ⟨rest', (happend hclosed vs (kind_front_ne_elseWord hq)).trans ?_⟩
  have hdone := manyUntilFrom_done hbody' p.body.reverse
  rwa [List.nil_append, List.reverse_reverse] at hdone

end SvLang
