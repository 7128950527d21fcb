import SvLang.Proofs.Grammar.Leads

/-!
# Operators on their tiers

What is needed of the operator tables of the grammar, stated once for all tiers.

* `Rules.ofTier` is the rule for the expressions of a tier, and `Rules.continued` the loop that
  extends such an expression by operators; `ofTier_above` ties the rules of two neighbouring tiers
  together.
* `operator?_symbol` and `operator?_eq_none`: a tier knows its operators and no others.
* `TokenKind.reach` ranks the tokens by the tightest expression they can extend, which is what
  decides where a loop stops.
-/

set_option autoImplicit false

namespace SvLang

open SvLang.Parser

/-! ## The rules of the tiers -/

namespace Tier

/-- How loose a tier is. -/
def rank : Tier → Nat
  | primary => 0
  | multiplicative => 1
  | additive => 2
  | comparison => 3

/-- The next tighter tier, if there is one. -/
def below : Tier → Tier
  | primary => primary
  | multiplicative => primary
  | additive => multiplicative
  | comparison => additive

theorem below_of_above? {σ τ : Tier} (h : σ.above? = some τ) : τ.below = σ := by
  cases σ <;> cases h <;> rfl

theorem rank_of_above? {σ τ : Tier} (h : σ.above? = some τ) : τ.rank = σ.rank + 1 := by
  cases σ <;> cases h <;> rfl

/-- The operators that the grammar looks for on a tier.  There are none on the tightest. -/
def operator? : Tier → TokenKind → Option BinaryOp
  | primary => fun _ ↦ none
  | multiplicative => Rules.multiplicativeOp?
  | additive => Rules.additiveOp?
  | comparison => Rules.comparisonOp?

end Tier

namespace Rules

variable (R : Rules)

/-- The rule for the expressions of a tier. -/
def ofTier : Tier → Parser Expr
  | .primary => R.primary
  | .multiplicative => R.multiplicative
  | .additive => R.additive
  | .comparison => R.comparison

theorem keeps_ofTier (τ : Tier) : (R.ofTier τ).Keeps := by
  cases τ with
  | primary => exact R.shrinks_primary.keeps
  | multiplicative => exact R.shrinks_multiplicative.keeps
  | additive => exact R.shrinks_additive.keeps
  | comparison => exact R.shrinks_comparison.keeps

/-- What follows the first operand on a tier, as far as it is read. -/
def continued (τ : Tier) (left : Expr) : Parser Expr :=
  extend (operation? τ.operator? (R.ofTier τ.below)) (keeps_operation? (R.keeps_ofTier τ.below))
    left

/-- A tier is the loop over the next tighter one. -/
theorem ofTier_above {σ τ : Tier} (h : σ.above? = some τ) :
    R.ofTier τ = R.ofTier σ >>= R.continued τ := by
  cases σ <;> cases h <;> rfl

end Rules

/-! ## The tables of operators -/

/-- An operator is found on its tier by its symbol. -/
theorem operator?_symbol {op : BinaryOp} {τ : Tier} (h : op.tier? = some τ) :
    τ.operator? (.symbol op.symbol) = some op := by
  cases op with
  | arithmetic op | assignment op | comparison op => cases op <;> cases h <;> rfl
  | step => cases h

/-- A step operator behind an operand is found on the additive tier. -/
theorem operator?_step (op : StepOp) :
    Tier.additive.operator? (.symbol op.symbol) = some (.step op) := by
  cases op <;> rfl

/-- Only a symbol is an operator: that of the operator which is found.  A step operator is found on
the additive tier only, and any other on its own tier only. -/
theorem eq_of_operator? {τ : Tier} {k : TokenKind} {op : BinaryOp} (h : τ.operator? k = some op) :
    k = .symbol op.symbol ∧ (op.tier? = some τ ∨ τ = .additive ∧ ∃ s, op = .step s) := by
  cases τ with
  | primary => cases h
  | multiplicative | additive | comparison =>
    cases k with
    | symbol s => cases s <;> cases h <;> simp [BinaryOp.symbol, BinaryOp.tier?, StepOp.symbol]
    | _ => cases h

/-- The rule by which an operator between two operands extends the left one. -/
theorem operation?_of_tier? {op? : TokenKind → Option BinaryOp} {operand : Parser Expr} {t : Token}
    {op : BinaryOp} {τ : Tier} (ht : op? t.kind = some op) (hop : op.tier? = some τ) :
    Rules.operation? op? operand t =
      some fun left ↦ (fun right ↦ .binary left op right) <$> operand := by
  rw [Rules.operation?, ht]
  cases op with
  | step => cases hop
  | arithmetic | assignment | comparison => rfl

/-- The rule by which a step operator extends the operand in front of it. -/
theorem operation?_step {op? : TokenKind → Option BinaryOp} {operand : Parser Expr} {t : Token}
    {op : StepOp} (ht : op? t.kind = some (.step op)) :
    Rules.operation? op? operand t =
      some fun left ↦ pure (.binary left (.step op) (.unary op none)) := by
  rw [Rules.operation?, ht]
  rfl

/-! ## Where an expression stops -/

/-- The rank of the tightest expression that a token of this kind can extend, counted so that a
parenthesis, which turns a name into a call, has rank 0, and what extends no expression rank 4. -/
def TokenKind.reach : TokenKind → Nat
  | symbol .openParen => 0
  | symbol .star | symbol .slash | symbol .percent | symbol .starAssign | symbol .slashAssign => 1
  | symbol .plus | symbol .minus | symbol .plusAssign | symbol .minusAssign => 2
  | symbol .plusPlus | symbol .minusMinus => 2
  | symbol .less | symbol .greater | symbol .equal | symbol .notEqual => 3
  | _ => 4

theorem reach_symbol {op : BinaryOp} {τ : Tier} (h : op.tier? = some τ) :
    (TokenKind.symbol op.symbol).reach = τ.rank := by
  cases op with
  | arithmetic op | assignment op | comparison op => cases op <;> cases h <;> rfl
  | step => cases h

theorem reach_step (op : StepOp) : (TokenKind.symbol op.symbol).reach = 2 := by
  cases op <;> rfl

/-- A tier does not look for what can only extend looser expressions. -/
theorem operator?_eq_none {τ : Tier} {k : TokenKind} (h : τ.rank < k.reach) :
    τ.operator? k = none := by
  cases k with
  | symbol s => cases τ <;> cases s <;> first | rfl | exact absurd h (by decide)
  | _ => cases τ <;> rfl

/-- What may follow a name and is no operator can extend no expression. -/
theorem reach_eq_four {k : TokenKind} (h : 0 < k.reach) (hop : ¬ k.isOperator) : k.reach = 4 := by
  cases k with
  | symbol s =>
    cases s <;> first | rfl | exact absurd h (by decide) | exact absurd (by decide) hop
  | _ => rfl

end SvLang
