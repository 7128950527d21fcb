import SvLang.Proofs.Grammar.Operators
import SvLang.Proofs.Grammar.Reads

/-!
# Only expressions are read

Whatever the rules of expressions read is what a tree writes: `ExprForm.Derives` relates a value to
what is written of it, through a tree that nests no deeper than there is room.  `Rules.Sound` says
this of the four rules that lie one level deeper, and each rule of the grammar hands it on.
-/

set_option autoImplicit false

namespace SvLang

open SvLang.Parser

/-- The value `a` is written `u`, with no more levels than there is room for. -/
def ExprForm.Derives (c : ExprForm) (room : Nat) (a : c.Abstract) (u : List Terminal) : Prop :=
  ∃ t : ExprTree c, t.abstract = a ∧ t.terminals = u ∧ t.levels ≤ room

/-- The value `a` is written `u`, with no more levels than there is room for. -/
def StmtForm.Derives (c : StmtForm) (room : Nat) (a : c.Abstract) (u : List Terminal) : Prop :=
  ∃ t : StmtTree c, t.abstract = a ∧ t.terminals = u ∧ t.levels ≤ room

/-- The rules for what lies one level deeper read nothing but what trees write. -/
structure Rules.Sound (R : Rules) (room : Nat) : Prop where
  expr : R.expr.Reads (ExprForm.whole.Derives room)
  operand : R.operand.Reads (ExprForm.operand.Derives room)
  stmt : R.stmt.Reads (StmtForm.nested.Derives room)
  elseIf : R.elseIf.Reads (StmtForm.elseIf.Derives room)

namespace Rules.Sound

variable {R : Rules} {room : Nat}

/-! ## Primary expressions -/

/-- Expressions with commas between them, or none. -/
theorem arguments (hR : R.Sound room) (close : TokenKind) :
    (listUntil close R.expr R.keeps_expr).Reads (ExprForm.arguments.Derives room) := by
  refine reads_listUntil (L := ExprForm.items.Derives room) hR.expr ?_ ?_ ?_ ?_
  · exact ⟨.noArguments, rfl, rfl, Nat.zero_le _⟩
  · rintro _ _ ⟨es, rfl, rfl, hes⟩
    exact ⟨.arguments es, rfl, rfl, hes⟩
  · rintro _ _ ⟨e, rfl, rfl, he⟩
    exact ⟨.one e, rfl, rfl, he⟩
  · rintro _ _ _ _ ⟨es, rfl, rfl, hes⟩ ⟨e, rfl, rfl, he⟩
    exact ⟨.more es e, rfl, rfl, Nat.max_le.2 ⟨hes, he⟩⟩

/-- A name, or a call of it. -/
theorem nameOrCall (hR : R.Sound room) (x : String) :
    (R.nameOrCall ⟨x, none⟩).Reads fun e u ↦
      (ExprForm.tier .primary).Derives room e (.ofName x :: u) := by
  refine reads_onKind rfl rfl ?_ (reads_pure ⟨.name x, rfl, rfl, Nat.zero_le _⟩)
  refine (hR.arguments _).bind ?_
  rintro _ _ ⟨es, rfl, rfl, hes⟩
  exact .expect rfl rfl (reads_pure ⟨.call x es, rfl, rfl, hes⟩)

/-- An expression in parentheses, behind the first of them. -/
theorem group (hR : R.Sound room) :
    R.group.Reads fun e u ↦
      (ExprForm.tier .primary).Derives room e (.ofSymbol .openParen :: u) := by
  refine hR.expr.bind ?_
  rintro _ _ ⟨e, rfl, rfl, he⟩
  exact .expect rfl rfl (reads_pure ⟨.group e, rfl, rfl, he⟩)

/-- What a `return` gives back, behind that word. -/
theorem returned (hR : R.Sound room) :
    R.returned.Reads fun e u ↦
      (ExprForm.tier .primary).Derives room e (.ofKeyword .returnWord :: u) := by
  refine reads_kind' fun k ↦ ?_
  split
  · exact reads_pure ⟨.retNothing, rfl, rfl, Nat.zero_le _⟩
  · refine hR.expr.bind ?_
    rintro _ _ ⟨e, rfl, rfl, he⟩
    exact reads_pure ⟨.ret e, rfl, by rw [List.append_nil]; rfl, he⟩

/-- What a step operator steps, behind the operator. -/
theorem stepBefore (hR : R.Sound room) (op : StepOp) :
    ((fun e ↦ .unary op (some e)) <$> R.operand).Reads fun e u ↦
      (ExprForm.tier .primary).Derives room e (.ofSymbol op.symbol :: u) := by
  refine hR.operand.map ?_
  rintro _ _ ⟨e, rfl, rfl, he⟩
  exact ⟨.stepBefore op e, rfl, rfl, he⟩

theorem primary (hR : R.Sound room) :
    R.primary.Reads ((ExprForm.tier .primary).Derives room) := by
  refine reads_branch (fun t rule h ↦ ?_) reads_unexpected
  rw [primaryRule?] at h
  split at h
  case h_1 hkind =>
    cases h
    rw [Token.terminal_of_hasText hkind rfl]
    exact hR.nameOrCall t.text
  case h_2 w hkind =>
    obtain ⟨x, hx, rfl⟩ := Option.map_eq_some_iff.1 h
    rw [Token.terminal_of_hasText hkind rfl]
    exact reads_pure ⟨.number w t.text x hx, rfl, rfl, Nat.zero_le _⟩
  case h_3 q hkind =>
    cases h
    rw [Token.terminal_of_hasText hkind rfl]
    exact reads_pure ⟨.quoted q t.text, rfl, rfl, Nat.zero_le _⟩
  case h_4 hkind => exact reads_rule h hkind rfl (hR.stepBefore .increment)
  case h_5 hkind => exact reads_rule h hkind rfl (hR.stepBefore .decrement)
  case h_6 hkind => exact reads_rule h hkind rfl hR.group
  case h_7 hkind => exact reads_rule h hkind rfl hR.returned
  case h_8 => cases h

/-! ## Operators -/

/-- The loop of a tier: each round puts one more operator behind what is there. -/
theorem continued {σ τ : Tier} (h : σ.above? = some τ)
    (hσ : (R.ofTier σ).Reads ((ExprForm.tier σ).Derives room)) {left : Expr} {u : List Terminal}
    (hleft : (ExprForm.tier τ).Derives room left u) :
    (R.continued τ left).Reads fun e v ↦ (ExprForm.tier τ).Derives room e (u ++ v) := by
  refine reads_extend (P := (ExprForm.tier τ).Derives room) (fun t rule hrule e u he ↦ ?_) hleft
  obtain ⟨op, hop, -⟩ := Option.map_eq_some_iff.1 hrule
  obtain ⟨hkind, htier⟩ := eq_of_operator? hop
  rw [Token.terminal_of_kind hkind rfl]
  obtain ⟨e, rfl, rfl, hl⟩ := he
  rcases htier with htier | ⟨rfl, s, rfl⟩
  · rw [operation?_of_tier? hop htier] at hrule
    cases hrule
    rw [Tier.below_of_above? h]
    refine hσ.map ?_
    rintro _ _ ⟨r, rfl, rfl, hr⟩
    exact ⟨.binary h e op htier r, rfl, rfl, Nat.max_le.2 ⟨hl, hr⟩⟩
  · rw [operation?_step hop] at hrule
    cases hrule
    exact reads_pure ⟨.stepBehind e s, rfl, rfl, hl⟩

/-- A tier reads nothing but its trees if the next tighter one does. -/
theorem ofTier_above {σ τ : Tier} (h : σ.above? = some τ)
    (hσ : (R.ofTier σ).Reads ((ExprForm.tier σ).Derives room)) :
    (R.ofTier τ).Reads ((ExprForm.tier τ).Derives room) := by
  rw [R.ofTier_above h]
  refine hσ.bind ?_
  rintro _ _ ⟨e, rfl, rfl, he⟩
  exact continued h hσ ⟨.lift h e, rfl, rfl, he⟩

theorem multiplicative (hR : R.Sound room) :
    R.multiplicative.Reads ((ExprForm.tier .multiplicative).Derives room) :=
  ofTier_above (σ := .primary) rfl hR.primary

theorem additive (hR : R.Sound room) :
    R.additive.Reads ((ExprForm.tier .additive).Derives room) :=
  ofTier_above (σ := .multiplicative) rfl hR.multiplicative

theorem comparison (hR : R.Sound room) :
    R.comparison.Reads ((ExprForm.tier .comparison).Derives room) :=
  ofTier_above (σ := .additive) rfl hR.additive

end Rules.Sound

end SvLang
