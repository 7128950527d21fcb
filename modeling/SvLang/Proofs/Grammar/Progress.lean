import SvLang.Proofs.Grammar.Verdict

/-!
# Progress

A rule that succeeds has moved forward by at least one token and has left the first end of the input
where it was, whatever else stands in the list: no end, several of them, or tokens behind them.
That a rule leaves fewer tokens than it was given comes with the rules themselves (`Shrinks`).  What
is added here is where it stops: `Parser.TakesAt` is handed on by every operation of the grammar, so
it holds of all the rules over `R` as soon as it does of the rules of `R` for what lies one level
deeper (`Rules.Takes`).

The number of tokens up to the first end, `firstEnd`, is the measure by which everything is bounded
that the grammar does.
-/

set_option autoImplicit false

namespace SvLang

open SvLang.Parser

theorem firstEnd_cons {t : Token} (ht : t.kind ≠ .eof) (ts : List Token) :
    firstEnd (t :: ts) = firstEnd ts + 1 := by
  have happend := firstEnd_append (show NoEnd [t] from List.forall_mem_singleton.2 ht) ts
  rwa [List.singleton_append, List.length_singleton, Nat.add_comm] at happend

namespace Parser

variable {α β : Type} {p : Parser α} {ts rest : List Token} {a : α}

/-- What the parser takes of these tokens stands in front of the first end of the input. -/
def TakesAt (p : Parser α) (ts : List Token) : Prop :=
  ∀ a rest, p ts = .ok (a, rest) → ∃ used, NoEnd used ∧ ts = used ++ rest

/-- Whenever the parser succeeds, it has moved strictly forward, and not past the first end of the
input. -/
def Advances (p : Parser α) : Prop :=
  ∀ ts a rest, p ts = .ok (a, rest) → ∃ used, used ≠ [] ∧ NoEnd used ∧ ts = used ++ rest

theorem TakesAt.firstEnd_le (h : p.TakesAt ts) (hp : p ts = .ok (a, rest)) :
    firstEnd rest ≤ firstEnd ts := by
  obtain ⟨used, hused, rfl⟩ := h a rest hp
  rw [firstEnd_append hused]
  exact Nat.le_add_left _ _

theorem Advances.firstEnd_lt (h : p.Advances) (hp : p ts = .ok (a, rest)) :
    firstEnd rest < firstEnd ts := by
  obtain ⟨used, hne, hused, rfl⟩ := h ts a rest hp
  have hlength : 0 < used.length := List.length_pos_iff.2 hne
  rw [firstEnd_append hused]
  omega

theorem Advances.takes (h : p.Advances) (ts : List Token) : p.TakesAt ts := by
  intro a rest hp
  obtain ⟨used, -, hused, hts⟩ := h ts a rest hp
  exact ⟨used, hused, hts⟩

theorem Shrinks.advances (hs : p.Shrinks) (h : ∀ ts, p.TakesAt ts) : p.Advances := by
  intro ts a rest hp
  obtain ⟨used, hused, hts⟩ := h ts a rest hp
  refine ⟨used, ?_, hused, hts⟩
  rintro rfl
  have hlt := hs ts a rest hp
  rw [hts] at hlt
  exact Nat.lt_irrefl _ hlt

/-! ## Every operation -/

theorem DecidedAt.takes (h : p.DecidedAt ts) : p.TakesAt ts := by
  intro a rest hp
  obtain ⟨used, hts, hused, -⟩ := h.ok a rest hp
  exact ⟨used, hused, hts⟩

/-- A taken token that does not end the input. -/
theorem TakesAt.cons {q : Parser α} {t : Token} (ht : t.kind ≠ .eof) (hq : q (t :: ts) = p ts)
    (h : p.TakesAt ts) : q.TakesAt (t :: ts) := by
  intro a rest hp
  rw [hq] at hp
  obtain ⟨used, hused, rfl⟩ := h a rest hp
  exact ⟨t :: used, List.forall_mem_cons.2 ⟨ht, hused⟩, rfl⟩

theorem TakesAt.bind {f : α → Parser β} (h : p.TakesAt ts)
    (hf : ∀ a rest, p ts = .ok (a, rest) → (f a).TakesAt rest) : (p >>= f).TakesAt ts := by
  intro b rest hp
  obtain ⟨a, middle, h₁, h₂⟩ := bind_eq_ok.1 hp
  obtain ⟨first, hfirst, rfl⟩ := h a middle h₁
  obtain ⟨second, hsecond, rfl⟩ := hf a middle h₁ b rest h₂
  refine ⟨first ++ second, ?_, by rw [List.append_assoc]⟩
  exact fun t ht ↦ (List.mem_append.1 ht).elim (hfirst t) (hsecond t)

theorem takesAt_pure (a : α) (ts : List Token) : (pure a : Parser α).TakesAt ts :=
  (decided_pure a ts).takes

theorem TakesAt.map (h : p.TakesAt ts) (f : α → β) : (f <$> p).TakesAt ts := by
  rw [map_eq_pure_bind]
  exact h.bind fun a rest _ ↦ takesAt_pure (f a) rest

theorem Advances.map (h : p.Advances) (f : α → β) : (f <$> p).Advances := by
  intro ts b rest hp
  rw [map_eq_pure_bind] at hp
  obtain ⟨a, middle, h₁, ⟨⟩⟩ := bind_eq_ok.1 hp
  exact h ts a rest h₁

theorem takesAt_forIncrement? {R : Rules} (h : R.expr.TakesAt ts) :
    R.forIncrement?.TakesAt ts := by
  by_cases hclose : (front ts).kind = .symbol .closeParen
  · have hnone : R.forIncrement? ts = .ok (none, ts) := if_pos hclose
    rw [TakesAt, hnone]
    exact takesAt_pure none ts
  cases hstep : Rules.steppedName? ts with
  | some r =>
    obtain ⟨e, rest⟩ := r
    obtain ⟨x, y, op, rfl, hx, hy, rfl⟩ := Rules.eq_of_steppedName? hstep
    rw [TakesAt, Rules.forIncrement?, if_neg hclose, hstep]
    rintro _ _ ⟨⟩
    refine ⟨[x, y], ?_, rfl⟩
    simp [NoEnd, hx, hy]
  | none =>
    have hexpr : R.forIncrement? ts = (some <$> R.expr) ts := by
      rw [Rules.forIncrement?, if_neg hclose, hstep]
    rw [TakesAt, hexpr]
    exact h.map some

/-- Every operation of the grammar stops in front of the first end if its parts do. -/
theorem localCongruence_takes : LocalCongruence fun _ p _ ts ↦ p.TakesAt ts where
  pure := takesAt_pure
  bind := .bind
  kind ts := (decided_kind ts).takes
  refuse problem hp habout _ ts := (decided_of_refuses problem hp habout ts).takes
  ofFront {_ _ _ _ _ ts} hp _ h := by rwa [TakesAt, hp ts rfl]
  cons {_ _ _ _ _ _ ts} ht hp _ h := h.cons ht (hp ts)
  forIncrement? h ts := takesAt_forIncrement? (h ts)

end Parser

/-! ## Every rule -/

namespace Rules

/-- The rules of `R` for what lies one level deeper stop in front of the first end of the input. -/
def Takes (R : Rules) : Prop := Related (fun _ p _ ↦ ∀ ts, p.TakesAt ts) R R

theorem takes_rules (limit room : Nat) : (rules limit room).Takes := by
  have h := decided_rules limit room
  exact ⟨fun ts ↦ (h.expr ts).takes, fun ts ↦ (h.operand ts).takes, fun ts ↦ (h.stmt ts).takes,
    fun ts ↦ (h.elseIf ts).takes⟩

/-- Each rule that the loops and the tiers rely on advances: those of `R` for what lies one level
deeper, and those of the grammar over `R`. -/
structure Advances (R : Rules) : Prop where
  /-- A statement. -/
  stmt : R.stmt.Advances
  /-- A whole expression. -/
  expr : R.expr.Advances
  /-- The operand of a step operator in front of it. -/
  operand : R.operand.Advances
  /-- The `if` behind an `else`. -/
  elseIf : R.elseIf.Advances
  primary : R.primary.Advances
  multiplicative : R.multiplicative.Advances
  additive : R.additive.Advances
  comparison : R.comparison.Advances
  /-- An `if` with that word, and with all that belongs to it. -/
  ifStatement : R.ifStatement.Advances
  parameter : Rules.parameter.Advances

theorem Takes.advances {R : Rules} (h : R.Takes) : R.Advances := by
  have hRel := localCongruence_takes.congruence
  have hprimary := Related.primary h hRel
  have hmultiplicative := Inner.multiplicative (S := R) hRel.toCompositional hprimary
  have hadditive := Inner.additive (S := R) hRel.toCompositional hprimary
  have hcomparison := Inner.comparison (S := R) hRel.toCompositional hprimary
  constructor
  case stmt => exact R.stmt_shrinks.advances h.stmt
  case expr => exact R.expr_shrinks.advances h.expr
  case operand => exact R.operand_shrinks.advances h.operand
  case elseIf => exact R.elseIf_shrinks.advances h.elseIf
  case primary => exact R.shrinks_primary.advances hprimary
  case multiplicative => exact R.shrinks_multiplicative.advances hmultiplicative
  case additive => exact R.shrinks_additive.advances hadditive
  case comparison => exact R.shrinks_comparison.advances hcomparison
  case ifStatement => exact R.shrinks_ifStatement.advances (Related.outer h hRel).elseIf
  case parameter => exact shrinks_parameter.advances (Inner.parameter hRel.toCompositional)

end Rules

end SvLang
