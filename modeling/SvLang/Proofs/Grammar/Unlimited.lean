import Mathlib.Logic.Function.Iterate
import SvLang.Proofs.Grammar.Limit
import SvLang.Proofs.Grammar.Loops

/-!
# The grammar without a limit

The rules are defined level by level, and at the limit of nesting there is nothing below them.  That
is not what makes them end: without any limit the equations of the grammar, `R.outer = R`, have
exactly one solution, `Rules.unlimited`.

The recursion is on the tokens up to the first end of the input.  Most of the rules one level deeper
are asked behind a token that has been taken.  A statement that is an expression asks for the
expression in front of the same token, and an expression goes down to its primary expressions
without taking one either.  So the measure is the number of tokens, and for the same number of them
a statement comes after an expression: with `room` levels, expressions are what they are without a
limit if there are fewer tokens than `room`, and statements if there are fewer than `room - 1`
(`Rules.SameWithin`).  Whatever lies below those levels does not matter.
-/

set_option autoImplicit false

namespace SvLang

open SvLang.Parser

/-! ## The same, and not for want of levels -/

namespace Parser

variable {α β : Type} {p q : Parser α} {ts : List Token}

/-- The second parser does with these tokens what the first one does, which stops in front of the
first end of the input and does not find that they nest too deep. -/
structure SameAt (p q : Parser α) (ts : List Token) : Prop where
  eq : q ts = p ts
  takes : p.TakesAt ts
  notDeep : ∀ e, p ts = .error e → ¬ e.IsTooDeep

theorem SameAt.of_eq {p' q' : Parser α} (hp : p ts = p' ts) (hq : q ts = q' ts)
    (h : p'.SameAt q' ts) : p.SameAt q ts := by
  refine ⟨by rw [hp, hq, h.eq], ?_, fun e he ↦ h.notDeep e (hp.symm.trans he)⟩
  rw [TakesAt, hp]
  exact h.takes

theorem SameAt.right (h : p.SameAt q ts) : q.SameAt q ts := h.of_eq h.eq rfl

theorem SameAt.congr_right {q' : Parser α} (h : p.SameAt q ts) (hq : q' ts = q ts) :
    p.SameAt q' ts :=
  h.of_eq rfl hq

theorem sameAt_pure (a : α) (ts : List Token) : (pure a : Parser α).SameAt (pure a) ts :=
  ⟨rfl, takesAt_pure a ts, fun e he ↦ by cases he⟩

theorem SameAt.bind {f g : α → Parser β} (h : p.SameAt q ts)
    (hf : ∀ a rest, p ts = .ok (a, rest) → (f a).SameAt (g a) rest) :
    (p >>= f).SameAt (q >>= g) ts := by
  refine ⟨?_, h.takes.bind fun a rest hp ↦ (hf a rest hp).takes, fun e he ↦ ?_⟩
  · rw [bind_apply, bind_apply, h.eq]
    cases hp : p ts with
    | error e => rfl
    | ok r => exact (hf r.1 r.2 hp).eq
  · rw [bind_apply] at he
    cases hp : p ts with
    | error e' =>
      rw [hp] at he
      cases he
      exact h.notDeep e hp
    | ok r =>
      rw [hp] at he
      exact (hf r.1 r.2 hp).notDeep e he

theorem SameAt.map (h : p.SameAt q ts) (f : α → β) : (f <$> p).SameAt (f <$> q) ts := by
  rw [map_eq_pure_bind, map_eq_pure_bind]
  exact h.bind fun a rest _ ↦ sameAt_pure (f a) rest

theorem SameAt.cons {p' q' : Parser α} {t : Token} (ht : t.kind ≠ .eof)
    (hp : p (t :: ts) = p' ts) (hq : q (t :: ts) = q' ts) (h : p'.SameAt q' ts) :
    p.SameAt q (t :: ts) :=
  ⟨by rw [hp, hq, h.eq], h.takes.cons ht hp, fun e he ↦ h.notDeep e (hp.symm.trans he)⟩

theorem sameAt_of_refuses (problem : Token → ParseProblem)
    (hp : ∀ ts, p ts = fail (problem (front ts)) ts) (htakes : p.TakesAt ts)
    (hdeep : ∀ t limit, problem t ≠ .tooDeep limit) : p.SameAt p ts := by
  refine ⟨rfl, htakes, ?_⟩
  rintro e he ⟨limit, hlimit⟩
  rw [hp] at he
  cases he
  exact hdeep _ limit hlimit

theorem sameAt_forIncrement? {R S : Rules} (h : R.expr.SameAt S.expr ts) :
    R.forIncrement?.SameAt S.forIncrement? ts := by
  by_cases hclose : (front ts).kind = .symbol .closeParen
  · have hnone : ∀ Q : Rules, Q.forIncrement? ts = .ok (none, ts) := fun Q ↦ if_pos hclose
    exact (sameAt_pure none ts).of_eq (hnone R) (hnone S)
  cases hstep : Rules.steppedName? ts with
  | some r =>
    have hsome : ∀ Q : Rules, Q.forIncrement? ts = .ok (some r.1, r.2) := by
      intro Q
      rw [Rules.forIncrement?, if_neg hclose, hstep]
    refine ⟨by rw [hsome, hsome], takesAt_forIncrement? h.takes, fun e he ↦ ?_⟩
    rw [hsome] at he
    cases he
  | none =>
    have hexpr : ∀ Q : Rules, Q.forIncrement? ts = (some <$> Q.expr) ts := by
      intro Q
      rw [Rules.forIncrement?, if_neg hclose, hstep]
    exact (h.map some).of_eq (hexpr R) (hexpr S)

/-! ## Below a number of tokens -/

/-- The same on lists with fewer than `m` tokens up to the first end. -/
def SameBelow (m : Nat) (α : Type) (p q : Parser α) (ts : List Token) : Prop :=
  firstEnd ts < m → p.SameAt q ts

theorem SameBelow.mono {m n : Nat} (h : SameBelow n α p q ts) (hmn : m ≤ n) :
    SameBelow m α p q ts :=
  fun hts ↦ h (Nat.lt_of_lt_of_le hts hmn)

theorem SameBelow.eq_of_lt {m : Nat} {q' : Parser α} (h : SameBelow m α p q ts)
    (h' : SameBelow m α p q' ts) (hts : firstEnd ts < m) : q ts = q' ts :=
  (h hts).eq.trans (h' hts).eq.symm

/-- What a parser leaves has no more tokens than it was given, so the bound remains. -/
theorem localCongruence_sameBelow (m : Nat) : LocalCongruence (SameBelow m) where
  pure a ts _ := sameAt_pure a ts
  bind h hf hts := (h hts).bind fun a rest hp ↦
    hf a rest hp (Nat.lt_of_le_of_lt ((h hts).takes.firstEnd_le hp) hts)
  kind ts _ := ⟨rfl, (decided_kind ts).takes, fun e he ↦ by cases he⟩
  refuse problem hp habout hdeep ts _ :=
    sameAt_of_refuses problem hp (decided_of_refuses problem hp habout ts).takes hdeep
  ofFront {_ _ _ _ _ ts} hp hq h hts := (h hts).of_eq (hp ts rfl) (hq ts rfl)
  cons {_ _ _ _ _ t ts} ht hp hq h hts := by
    rw [firstEnd_cons ht] at hts
    exact (h (Nat.lt_of_succ_lt hts)).cons ht (hp ts) (hq ts)
  forIncrement? h ts hts := sameAt_forIncrement? (h ts hts)

/-- Behind a token that is taken, there is one token less. -/
theorem sameBelow_branch {m : Nat} {rule? rule'? : Token → Option (Parser α)}
    {otherwise otherwise' : Parser α} (heof : ∀ t, t.kind = .eof → rule? t = none)
    (h : ∀ t, Option.Rel (fun rule rule' ↦ ∀ ts, SameBelow m α rule rule' ts) (rule? t) (rule'? t))
    (ho : ∀ ts, SameBelow (m + 1) α otherwise otherwise' ts) (ts : List Token) :
    SameBelow (m + 1) α (branch rule? otherwise) (branch rule'? otherwise') ts := by
  intro hts
  have hrel := h (front ts)
  generalize hr : rule? (front ts) = rule, hr' : rule'? (front ts) = rule' at hrel
  cases hrel with
  | none => exact (ho ts hts).of_eq (branch_of_none hr) (branch_of_none hr')
  | some hrel =>
    have hkind : (front ts).kind ≠ .eof := by
      intro hend
      rw [heof _ hend] at hr
      cases hr
    obtain ⟨t, rest, rfl, ht⟩ := exists_cons_of_front hkind
    rw [ht] at hr hr' hkind
    rw [firstEnd_cons hkind] at hts
    exact (hrel rest (Nat.lt_of_succ_lt_succ hts)).cons hkind (branch_of_some hr rest)
      (branch_of_some hr' rest)

end Parser

/-! ## Level by level -/

namespace Rules

/-- The rules of `S` are the same as those of `R` where `room` levels are enough for the tokens. -/
structure SameWithin (room : Nat) (R S : Rules) : Prop where
  expr : ∀ ts, SameBelow room Expr R.expr S.expr ts
  operand : ∀ ts, SameBelow room Expr R.operand S.operand ts
  stmt : ∀ ts, SameBelow (room - 1) Stmt R.stmt S.stmt ts
  elseIf : ∀ ts, SameBelow (room - 1) Stmt R.elseIf S.elseIf ts

theorem sameWithin_zero (R S : Rules) : SameWithin 0 R S := by
  constructor <;> exact fun ts hts ↦ absurd hts (Nat.not_lt_zero _)

namespace SameWithin

variable {room : Nat} {R S : Rules} (h : SameWithin room R S)

include h

/-- One token less, and the bound is the same for all four rules. -/
theorem related : Related (fun α p q ↦ ∀ ts, SameBelow (room - 1) α p q ts) R S where
  expr ts := (h.expr ts).mono (Nat.sub_le room 1)
  operand ts := (h.operand ts).mono (Nat.sub_le room 1)
  stmt := h.stmt
  elseIf := h.elseIf

theorem primary (ts : List Token) : SameBelow (room + 1) Expr R.primary S.primary ts := by
  have hinner := (localCongruence_sameBelow room).congruence.toCompositional
  refine sameBelow_branch (fun t ht ↦ ?_) (Inner.primaryRule? hinner h.expr h.operand)
    (localCongruence_sameBelow (room + 1)).congruence.unexpected ts
  rw [Rules.primaryRule?, ht]

theorem elseBranch (ts : List Token) :
    SameBelow (room - 1) (List Stmt) R.elseBranch S.elseBranch ts := by
  have hRel := (localCongruence_sameBelow (room - 1)).congruence.toCompositional
  exact h.related.inner.elseBranch hRel h.related.elseIf ts

end SameWithin

/-! ### One level more

An expression goes down to its primary expressions in front of the same token, and only behind that
token to the next level.  A statement may go to the next level at once. -/

namespace SameWithin

variable {room : Nat} {R S : Rules}

theorem comparison (h : SameWithin room R S) (ts : List Token) :
    SameBelow (room + 1) Expr R.comparison S.comparison ts :=
  Inner.comparison (localCongruence_sameBelow (room + 1)).congruence.toCompositional h.primary ts

theorem statement (h : SameWithin (room + 1) R S) (ts : List Token) :
    SameBelow (room + 1) Stmt R.statement S.statement ts := by
  have hbelow := (localCongruence_sameBelow room).congruence
  have hhere := (localCongruence_sameBelow (room + 1)).congruence.toCompositional
  have hrules := h.related.inner.statementRule? hbelow.toCompositional
    (Related.primary h.related hbelow) h.elseBranch
  refine sameBelow_branch (fun t ht ↦ ?_) hrules (Inner.exprStatement hhere h.expr) ts
  rw [Rules.statementRule?, ht]

theorem ifStatement (h : SameWithin (room + 1) R S) (ts : List Token) :
    SameBelow (room + 1) Stmt R.ifStatement S.ifStatement ts := by
  have hbelow := (localCongruence_sameBelow room).congruence.toCompositional
  refine sameBelow_branch (fun t ht ↦ ?_) (fun t ↦ ?_)
    (localCongruence_sameBelow (room + 1)).congruence.unexpected ts
  · rw [ht]
    rfl
  · split
    · exact .some (h.related.inner.ifElse hbelow h.elseBranch)
    · exact .none

theorem outer (h : SameWithin room R S) : SameWithin (room + 1) R.outer S.outer := by
  cases room with
  | zero =>
    have hnone : ∀ {p q : Parser Stmt} ts, SameBelow 0 Stmt p q ts := fun ts hts ↦
      absurd hts (Nat.not_lt_zero _)
    exact ⟨h.comparison, h.primary, hnone, hnone⟩
  | succ room => exact ⟨h.comparison, h.primary, h.statement, h.ifStatement⟩

end SameWithin

/-! ## What lies below does not matter -/

theorem rules_eq_iterate (limit room : Nat) :
    rules limit room = outer^[room] (.exhausted limit) := by
  induction room with
  | zero => rfl
  | succ room ih => rw [rules, ih, Function.iterate_succ_apply']

theorem sameWithin_iterate (room : Nat) (R S : Rules) :
    SameWithin room (outer^[room] R) (outer^[room] S) := by
  induction room with
  | zero => exact sameWithin_zero R S
  | succ room ih =>
    rw [Function.iterate_succ_apply', Function.iterate_succ_apply']
    exact ih.outer

/-- With enough levels it does not matter what the limit is, nor how many more levels are left. -/
theorem sameWithin_rules (limit limit' : Nat) {room n n' : Nat} (h : room ≤ n) (h' : room ≤ n') :
    SameWithin room (rules limit n) (rules limit' n') := by
  obtain ⟨k, rfl⟩ := Nat.exists_eq_add_of_le h
  obtain ⟨k', rfl⟩ := Nat.exists_eq_add_of_le h'
  rw [rules_eq_iterate, rules_eq_iterate, Function.iterate_add_apply, Function.iterate_add_apply]
  exact sameWithin_iterate room _ _

/-- Rules that know no limit do what those do that have enough levels. -/
theorem sameWithin_of_outer_eq {R : Rules} (h : R.outer = R) (limit room : Nat) :
    SameWithin room (rules limit room) R := by
  have hsame := sameWithin_iterate room (.exhausted limit) R
  rwa [Function.iterate_fixed h, ← rules_eq_iterate] at hsame

/-- Rules that do what those with enough levels do are determined by that. -/
theorem eq_of_sameWithin {R S : Rules} (hR : ∀ room, SameWithin room (rules 0 room) R)
    (hS : ∀ room, SameWithin room (rules 0 room) S) : R = S := by
  have hexpr : R.expr = S.expr := funext fun ts ↦
    ((hR _).expr ts).eq_of_lt ((hS _).expr ts) (Nat.lt_succ_self _)
  have hoperand : R.operand = S.operand := funext fun ts ↦
    ((hR _).operand ts).eq_of_lt ((hS _).operand ts) (Nat.lt_succ_self _)
  have hstmt : R.stmt = S.stmt := funext fun ts ↦
    ((hR (firstEnd ts + 2)).stmt ts).eq_of_lt ((hS _).stmt ts) (Nat.lt_succ_self _)
  have helseIf : R.elseIf = S.elseIf := funext fun ts ↦
    ((hR (firstEnd ts + 2)).elseIf ts).eq_of_lt ((hS _).elseIf ts) (Nat.lt_succ_self _)
  cases R
  cases S
  rw [Rules.mk.injEq]
  exact ⟨hexpr, hoperand, hstmt, helseIf⟩

/-! ## The solution -/

/-- The rules without a limit: as many levels as the tokens can ask for. -/
def unlimited : Rules where
  expr ts := (rules 0 (firstEnd ts + 2)).expr ts
  operand ts := (rules 0 (firstEnd ts + 2)).operand ts
  stmt ts := (rules 0 (firstEnd ts + 2)).stmt ts
  elseIf ts := (rules 0 (firstEnd ts + 2)).elseIf ts
  expr_shrinks ts := (rules 0 (firstEnd ts + 2)).expr_shrinks ts
  operand_shrinks ts := (rules 0 (firstEnd ts + 2)).operand_shrinks ts
  stmt_shrinks ts := (rules 0 (firstEnd ts + 2)).stmt_shrinks ts
  elseIf_shrinks ts := (rules 0 (firstEnd ts + 2)).elseIf_shrinks ts

theorem sameWithin_unlimited (limit room : Nat) : SameWithin room (rules limit room) unlimited := by
  -- For the tokens at hand, `firstEnd ts + 2` levels do what `room` levels do.
  have hone : ∀ ts, firstEnd ts < room → SameWithin (firstEnd ts + 1) (rules limit room)
      (rules 0 (firstEnd ts + 2)) := fun ts hts ↦
    sameWithin_rules limit 0 hts (Nat.le_succ _)
  have htwo : ∀ ts, firstEnd ts < room - 1 → SameWithin (firstEnd ts + 2) (rules limit room)
      (rules 0 (firstEnd ts + 2)) := fun ts hts ↦
    sameWithin_rules limit 0 (by omega) (Nat.le_refl _)
  constructor
  case expr => exact fun ts hts ↦ ((hone ts hts).expr ts (Nat.lt_succ_self _)).congr_right rfl
  case operand => exact fun ts hts ↦ ((hone ts hts).operand ts (Nat.lt_succ_self _)).congr_right rfl
  case stmt => exact fun ts hts ↦ ((htwo ts hts).stmt ts (Nat.lt_succ_self _)).congr_right rfl
  case elseIf => exact fun ts hts ↦ ((htwo ts hts).elseIf ts (Nat.lt_succ_self _)).congr_right rfl

/-- The equations of the grammar have one solution. -/
theorem outer_eq_iff {R : Rules} : R.outer = R ↔ R = unlimited := by
  constructor
  · exact fun h ↦ eq_of_sameWithin (sameWithin_of_outer_eq h 0) (sameWithin_unlimited 0)
  · rintro rfl
    refine eq_of_sameWithin (fun room ↦ ?_) (sameWithin_unlimited 0)
    cases room with
    | zero => exact sameWithin_zero _ _
    | succ room => exact (sameWithin_unlimited 0 room).outer

theorem takes_unlimited : unlimited.Takes := by
  have h : ∀ ts, SameWithin (firstEnd ts + 2) (rules 0 (firstEnd ts + 2)) unlimited := fun ts ↦
    sameWithin_unlimited 0 _
  constructor
  case expr => exact fun ts ↦ ((h ts).expr ts (by omega)).right.takes
  case operand => exact fun ts ↦ ((h ts).operand ts (by omega)).right.takes
  case stmt => exact fun ts ↦ ((h ts).stmt ts (by omega)).right.takes
  case elseIf => exact fun ts ↦ ((h ts).elseIf ts (by omega)).right.takes

/-! ## Whole programs -/

/-- The program that a list of tokens writes, by the rules of `R` for statements. -/
def program (R : Rules) (ts : List Token) : Except ParseError Program :=
  (R.body ts).map fun (body, _) ↦ ⟨body⟩

theorem program_eq_error {R : Rules} {ts : List Token} {e : ParseError} :
    R.program ts = .error e ↔ R.body ts = .error e := by
  rw [program]
  cases R.body ts <;> simp [Except.map]

theorem sameAt_body_unlimited {limit : Nat} {ts : List Token} (h : firstEnd ts + 2 ≤ limit) :
    (rules limit limit).body.SameAt unlimited.body ts := by
  have hRel := (localCongruence_sameBelow (limit - 1)).congruence
  exact Related.body (sameWithin_unlimited limit limit).related hRel ts (by omega)

theorem not_isTooDeep_of_unlimited {ts : List Token} {e : ParseError}
    (h : unlimited.program ts = .error e) : ¬ e.IsTooDeep :=
  (sameAt_body_unlimited (Nat.le_refl _)).right.notDeep e (program_eq_error.1 h)

theorem parseWithin_eq_unlimited {limit : Nat} {ts : List Token} (h : firstEnd ts + 2 ≤ limit) :
    parseWithin limit ts = unlimited.program ts := by
  rw [program, (sameAt_body_unlimited h).eq]
  rfl

/-- Unless the limit is what a program is refused for, it is read as without a limit. -/
theorem parseWithin_eq_unlimited_of_not_isTooDeep {limit : Nat} {ts : List Token}
    (h : ∀ e, parseWithin limit ts = .error e → ¬ e.IsTooDeep) :
    parseWithin limit ts = unlimited.program ts := by
  rw [← parseWithin_of_le (Nat.le_max_left limit (firstEnd ts + 2)) h]
  exact parseWithin_eq_unlimited (Nat.le_max_right _ _)

end Rules

/-- **Every rule advances, every loop ends, and no limit is needed for it.**  Whatever the list of
tokens, and with however many levels of nesting left: a rule that succeeds has moved strictly
forward and not past the first end of the input, and each loop of the grammar comes to its end
within as many rounds as there are tokens up to there.  Without any limit the equations of the
grammar have exactly one solution, of which the same holds, and by which no program nests too deep.
A program is read by it as within any limit that does not refuse it for its nesting, and a limit of
two more than the number of tokens never does. -/
theorem grammar_progress :
    (∀ limit room, (rules limit room).Advances ∧ (rules limit room).LoopsEnd) ∧
    (∀ R : Rules, R.outer = R ↔ R = .unlimited) ∧
    Rules.unlimited.Advances ∧ Rules.unlimited.LoopsEnd ∧
    (∀ ts e, Rules.unlimited.program ts = .error e → ¬ e.IsTooDeep) ∧
    ∀ limit ts, parseWithin limit ts = Rules.unlimited.program ts ∨
      limit < firstEnd ts + 2 ∧ ∃ e, parseWithin limit ts = .error e ∧ e.IsTooDeep := by
  refine ⟨fun limit room ↦ ?_, fun R ↦ Rules.outer_eq_iff, Rules.takes_unlimited.advances,
    Rules.takes_unlimited.loopsEnd, fun ts e h ↦ Rules.not_isTooDeep_of_unlimited h,
    fun limit ts ↦ ?_⟩
  · have htakes := Rules.takes_rules limit room
    exact ⟨htakes.advances, htakes.loopsEnd⟩
  · by_cases hdeep : ∃ e, parseWithin limit ts = .error e ∧ e.IsTooDeep
    · by_cases hlimit : limit < firstEnd ts + 2
      · exact .inr ⟨hlimit, hdeep⟩
      · exact .inl (Rules.parseWithin_eq_unlimited (Nat.le_of_not_lt hlimit))
    · exact .inl (Rules.parseWithin_eq_unlimited_of_not_isTooDeep fun e he hlimit ↦
        hdeep ⟨e, he, hlimit⟩)

/-- Two semicolons with nothing behind them, not even an end of the input, are two statements, also
without a limit.  Two rounds are enough for them. -/
theorem grammar_progress_semicolons :
    Rules.unlimited.program
        [⟨.symbol .semicolon, ";", ⟨0, 1⟩⟩, ⟨.symbol .semicolon, ";", ⟨1, 2⟩⟩] =
      .ok ⟨[.empty, .empty]⟩ ∧
    ∃ completed ≤ 2, (Loop.whileNot (· = .eof) (rules 4 4).stmt).run 2 []
        [⟨.symbol .semicolon, ";", ⟨0, 1⟩⟩, ⟨.symbol .semicolon, ";", ⟨1, 2⟩⟩] =
      some (completed, .ok ([.empty, .empty], [])) := by
  have hparse : parseWithin 4
      [⟨.symbol .semicolon, ";", ⟨0, 1⟩⟩, ⟨.symbol .semicolon, ";", ⟨1, 2⟩⟩] =
    .ok ⟨[.empty, .empty]⟩ := by cbv
  have hbody : (rules 4 4).body
      [⟨.symbol .semicolon, ";", ⟨0, 1⟩⟩, ⟨.symbol .semicolon, ";", ⟨1, 2⟩⟩] =
    .ok ([.empty, .empty], []) := by cbv
  obtain ⟨hrules, -, -, -, -, hlimit⟩ := grammar_progress
  constructor
  · rcases hlimit 4 [⟨.symbol .semicolon, ";", ⟨0, 1⟩⟩, ⟨.symbol .semicolon, ";", ⟨1, 2⟩⟩] with
      hsame | ⟨hlt, -⟩
    · rw [← hsame, hparse]
    · exact absurd hlt (by decide)
  · rw [← hbody]
    exact (hrules 4 4).2.program
      [⟨.symbol .semicolon, ";", ⟨0, 1⟩⟩, ⟨.symbol .semicolon, ";", ⟨1, 2⟩⟩] 2 (by decide)

end SvLang
