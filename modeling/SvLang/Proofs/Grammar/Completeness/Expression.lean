import SvLang.Proofs.Grammar.Operators
import SvLang.Proofs.Grammar.Starts

/-!
# Expressions are read back

Every tree of an expression that nests no deeper than there is room, and whose `return`s keep their
distance, is read back from its terminals: `ExprTree.readBy`.  The induction is on the tree.  Since
a loop of the grammar works its way through a tree from the left, what is shown of the trees of a
tier is that their rule reads them and *stays in the loop* behind them; where the loop then stops is
up to the token that follows.
-/

set_option autoImplicit false

namespace SvLang

open SvLang.Parser

/-- The rules `R` read this tree in front of a token of kind `k`, if a tree of its form may stand
there.  On a tier the loop goes on behind the tree, and so does a list of items. -/
def ExprTree.ReadBy (R : Rules) (k : TokenKind) : {c : ExprForm} → ExprTree c → Prop
  | .tier τ, t => max 1 τ.rank ≤ k.reach →
      (R.ofTier τ).Leads t.terminals k (R.continued τ t.abstract)
  | .operand, t => 1 ≤ k.reach → R.operand.Leads t.terminals k (pure t.abstract)
  | .whole, t => k.reach = 4 → R.expr.Leads t.terminals k (pure t.abstract)
  | .items, t => k.reach = 4 → ∀ close, ¬ close.startsExpr →
      (listUntil close R.expr R.keeps_expr).Leads t.terminals k
        (manyAfter (.symbol .comma) R.expr R.keeps_expr t.abstract.reverse)
  | .arguments, t => k.reach = 4 → ¬ k.startsExpr → k ≠ .symbol .comma →
      (listUntil k R.expr R.keeps_expr).Leads t.terminals k (pure t.abstract)

namespace Rules

variable (R : Rules) {k : TokenKind}

/-! ## The loop of a tier -/

/-- The loop ends at a token that can only extend looser expressions. -/
theorem continued_stop {τ : Tier} (hk : τ.rank < k.reach) (e : Expr) :
    (R.continued τ e).Leads [] k (pure e) :=
  leads_extend_stop fun t ht ↦ by rw [operation?, ht, operator?_eq_none hk]; rfl

/-- One round of the loop: an operator and its right operand. -/
theorem continued_binary {σ τ : Tier} (h : σ.above? = some τ) {op : BinaryOp}
    (hop : op.tier? = some τ) {left right : Expr} {u : List Terminal}
    (hright : (R.ofTier σ).Leads u k (pure right)) :
    (R.continued τ left).Leads (.ofSymbol op.symbol :: u) k
      (R.continued τ (.binary left op right)) := by
  have hrule : ∀ t : Token, t.terminal = .ofSymbol op.symbol →
      operation? τ.operator? (R.ofTier τ.below) t =
        some fun left ↦ (fun right ↦ .binary left op right) <$> R.ofTier τ.below := by
    intro t ht
    refine operation?_of_tier? ?_ hop
    rw [Token.kind_of_terminal ht]
    exact operator?_symbol hop
  rw [← Tier.below_of_above? h] at hright
  exact (leads_extend hrule).cons ((hright.map_pure _).bind_pure _)

/-- One round of the loop: a step operator. -/
theorem continued_step (op : StepOp) (left : Expr) :
    (R.continued .additive left).Leads [.ofSymbol op.symbol] k
      (R.continued .additive (.binary left (.step op) (.unary op none))) := by
  have hrule : ∀ t : Token, t.terminal = .ofSymbol op.symbol →
      operation? Tier.additive.operator? (R.ofTier Tier.additive.below) t =
        some fun left ↦ pure (.binary left (.step op) (.unary op none)) := by
    intro t ht
    refine operation?_step ?_
    rw [Token.kind_of_terminal ht]
    exact operator?_step op
  exact leads_extend hrule

/-! ## Primary expressions -/

variable {R}

/-- A primary expression by the rule that its first token selects. -/
theorem leads_primary {x : Terminal} {q : Parser Expr}
    (h : ∀ t : Token, t.kind = x.kind → (x.kind.hasText → t.text = x.text) →
      R.primaryRule? t = some q) : R.primary.Leads [x] k q :=
  leads_branch (fun t ht ↦ h t (Token.kind_of_terminal ht) (Token.text_of_terminal ht)) k

theorem leads_primary_name (x : String) :
    R.primary.Leads [.ofName x] k (R.nameOrCall ⟨x, none⟩) :=
  leads_primary fun t hkind htext ↦ by rw [primaryRule?, hkind, htext rfl]; rfl

theorem leads_primary_number {w : Width} {text : String} {value : Float}
    (h : Decimal.readFloat? text.toList = some value) :
    R.primary.Leads [⟨.number w, text⟩] k (pure (.number w value)) :=
  leads_primary fun t hkind htext ↦ by rw [primaryRule?, hkind, htext rfl]; simp [h]

theorem leads_primary_quoted (q : Quote) (content : String) :
    R.primary.Leads [⟨.text q, content⟩] k (pure (.text q content)) :=
  leads_primary fun t hkind htext ↦ by rw [primaryRule?, hkind, htext rfl]

theorem leads_primary_step (op : StepOp) :
    R.primary.Leads [.ofSymbol op.symbol] k ((fun e ↦ .unary op (some e)) <$> R.operand) :=
  leads_primary fun t hkind _ ↦ by rw [primaryRule?, hkind]; cases op <;> rfl

theorem leads_primary_group : R.primary.Leads [.ofSymbol .openParen] k R.group :=
  leads_primary fun t hkind _ ↦ by rw [primaryRule?, hkind]; rfl

theorem leads_primary_return : R.primary.Leads [.ofKeyword .returnWord] k R.returned :=
  leads_primary fun t hkind _ ↦ by rw [primaryRule?, hkind]; rfl

end Rules

/-! ## The induction -/

namespace ExprTree

open Rules

variable {R : Rules} {k : TokenKind}

/-- On the tightest tier the loop is empty, so reading to the end is enough. -/
theorem readBy_of_primary {t : ExprTree (.tier .primary)}
    (h : 1 ≤ k.reach → R.primary.Leads t.terminals k (pure t.abstract)) : t.ReadBy R k := by
  intro hk
  have hstop : ∀ e, R.continued .primary e = pure e := by
    intro e
    funext ts
    cases ts with
    | nil => rw [continued, extend, pure_apply]
    | cons u ts => rw [continued, extend]; rfl
  rw [hstop]
  exact h (by simpa [Tier.rank] using hk)

/-- Behind a tree of a tier the loop stops at a token that can only extend looser ones. -/
theorem ReadBy.stop {τ : Tier} {t : ExprTree (.tier τ)} (h : t.ReadBy R k)
    (hk : τ.rank < k.reach) : (R.ofTier τ).Leads t.terminals k (pure t.abstract) :=
  (h (by omega)).stop (continued_stop R hk _)

/-- **Expressions are read back.**  Rules that have room for a tree read it from its terminals, if
its `return`s keep their distance. -/
theorem readBy {c : ExprForm} (t : ExprTree c) (limit : Nat) :
    ∀ {room : Nat} {k : TokenKind}, t.levels ≤ room → t.Settled k →
      t.ReadBy (rules limit room) k := by
  induction t with
  | name x =>
    intro room k _ _
    refine readBy_of_primary fun hk ↦ (leads_primary_name x).stop (leads_onKind_otherwise ?_)
    rintro rfl
    exact absurd hk (by decide)
  | call f es ih =>
    intro room k hl hs
    refine readBy_of_primary fun _ ↦ (leads_primary_name f).cons ?_
    refine (leads_onKind rfl _).cons ?_
    refine ((ih hl hs rfl (by decide) (by decide)).bind_pure _).trans ?_
    exact leads_expect .argumentsClose rfl _ k
  | number w text value h =>
    intro room k _ _
    exact readBy_of_primary fun _ ↦ leads_primary_number h
  | quoted q content =>
    intro room k _ _
    exact readBy_of_primary fun _ ↦ leads_primary_quoted q content
  | stepBefore op e ih =>
    intro room k hl hs
    exact readBy_of_primary fun hk ↦ (leads_primary_step op).cons ((ih hl hs hk).map_pure _)
  | group e ih =>
    intro room k hl hs
    refine readBy_of_primary fun _ ↦ leads_primary_group.cons ?_
    exact ((ih hl hs rfl).bind_pure _).trans (leads_expect .groupClose rfl _ k)
  | ret e ih =>
    intro room k hl hs
    refine readBy_of_primary fun hk ↦ leads_primary_return.cons ((leads_kind _ _).look ?_)
    rw [if_neg]
    · exact (ih hl hs.1 (reach_eq_four hk hs.2)).bind_pure _
    · intro hfirst
      have := e.startsExpr_firstKind (by simp) k
      rw [hfirst] at this
      exact absurd this (by decide)
  | retNothing =>
    rintro room k - rfl
    refine readBy_of_primary fun _ ↦ leads_primary_return.stop ((leads_kind _ _).stop ?_)
    rw [if_pos rfl]
    exact .refl _ _
  | @lift σ τ h e ih =>
    intro room k hl hs hk
    rw [ofTier_above _ h]
    rw [Tier.rank_of_above? h] at hk
    exact ((ih hl hs).stop (by omega)).bind_pure _
  | @binary σ τ h left op hop right ihl ihr =>
    intro room k hl hs hk
    obtain ⟨hleft, hright⟩ := Nat.max_le.1 hl
    have hσ := Tier.rank_of_above? h
    have hop' := reach_symbol hop
    refine (ihl hleft hs.1 ?_).trans (continued_binary _ h hop ((ihr hright hs.2).stop ?_))
    · show _ ≤ (TokenKind.symbol op.symbol).reach
      omega
    · omega
  | stepBehind left op ih =>
    intro room k hl hs hk
    exact (ih hl hs (Nat.le_of_eq (reach_step op).symm)).trans (continued_step _ op _)
  | operand e ih =>
    intro room k hl hs hk
    cases room with
    | zero => exact absurd hl (Nat.not_succ_le_zero _)
    | succ room => exact (ih (Nat.le_of_succ_le_succ hl) hs).stop hk
  | whole e ih =>
    intro room k hl hs hk
    cases room with
    | zero => exact absurd hl (Nat.not_succ_le_zero _)
    | succ room => exact (ih (Nat.le_of_succ_le_succ hl) hs).stop (by rw [hk]; decide)
  | one e ih =>
    intro room k hl hs hk close hclose
    refine leads_listUntil ?_ (ih hl hs hk)
    rintro rfl
    exact hclose (e.startsExpr_firstKind (by simp) k)
  | more es e ihs ihe =>
    intro room k hl hs hk close hclose
    obtain ⟨hes, he⟩ := Nat.max_le.1 hl
    simp only [abstract, List.reverse_append, List.reverse_singleton, List.singleton_append]
    exact (ihs hes hs.1 rfl close hclose).trans (leads_manyAfter rfl (ihe he hs.2 hk))
  | noArguments =>
    intro room k _ _ _ _ _
    exact leads_listUntil_none
  | arguments es ih =>
    intro room k hl hs hk hstart hcomma
    have hes := (ih hl hs hk k hstart).stop (leads_manyAfter_stop hcomma)
    rwa [List.reverse_reverse] at hes

/-- A whole expression is read back in front of a token that can extend no expression. -/
theorem leads_expr (e : ExprTree .whole) {limit room : Nat} (hl : e.levels ≤ room)
    (hs : e.Settled k) (hk : k.reach = 4) :
    (rules limit room).expr.Leads e.terminals k (pure e.abstract) :=
  e.readBy limit hl hs hk

end ExprTree

end SvLang
