import SvLang.Proofs.Grammar.Congruence.Local
import SvLang.Proofs.Grammar.Soundness.Statement

/-!
# What a verdict is decided by

A parser that succeeds has looked at the tokens it has taken and at the one behind them; a parser
that refuses a token has looked at that token and at most at one more.  So the verdict is the same
on every list that agrees with the given one as far as that, and no parser ever looks behind a token
that ends the input.

Lists are compared as if `pastEnd` went on for ever behind their ends: `tokenAt`.

## What is here

* `Agree n`: two lists agree up to the index `n`.
* `Parser.DecidedAt`: what a parser does with a list is decided in this way.  It is handed on by
  every operation of the grammar (`localCongruence_decided`), so it holds of all rules
  (`Rules.decided_rules`).
* `parse_decided`, for whole programs.
-/

set_option autoImplicit false

namespace SvLang

open SvLang.Parser

/-! ## Lists without an end -/

/-- The token at an index.  Behind the end of the list there is `pastEnd` at every index. -/
def tokenAt (ts : List Token) (i : Nat) : Token := ts.getD i pastEnd

@[simp] theorem tokenAt_cons_zero (t : Token) (ts : List Token) : tokenAt (t :: ts) 0 = t := rfl

@[simp] theorem tokenAt_cons_succ (t : Token) (ts : List Token) (i : Nat) :
    tokenAt (t :: ts) (i + 1) = tokenAt ts i := rfl

theorem front_eq_tokenAt (ts : List Token) : front ts = tokenAt ts 0 := by
  cases ts <;> rfl

/-- The lists agree up to the index `n`. -/
def Agree (n : Nat) (us ts : List Token) : Prop := ∀ i ≤ n, tokenAt us i = tokenAt ts i

namespace Agree

variable {m n : Nat} {us ts : List Token}

theorem mono (h : Agree n us ts) (hmn : m ≤ n) : Agree m us ts :=
  fun i hi ↦ h i (Nat.le_trans hi hmn)

theorem front_eq (h : Agree n us ts) : front us = front ts := by
  rw [front_eq_tokenAt, front_eq_tokenAt, h 0 (Nat.zero_le n)]

/-- What stands in front of lists that agree makes them agree further. -/
theorem append (h : Agree n us ts) (used : List Token) :
    Agree (used.length + n) (used ++ us) (used ++ ts) := by
  induction used with
  | nil => simpa using h
  | cons t used ih =>
    intro i hi
    cases i with
    | zero => rfl
    | succ i => exact ih i (by simp at hi; omega)

end Agree

/-- No token of the list ends the input. -/
def NoEnd (ts : List Token) : Prop := ∀ t ∈ ts, t.kind ≠ .eof

/-- A list that agrees with another one far enough starts with the same tokens, unless one of them
ends the input. -/
theorem Agree.exists_append {n : Nat} {used us rest : List Token} (hused : NoEnd used)
    (h : Agree (used.length + n) us (used ++ rest)) :
    ∃ rest', us = used ++ rest' ∧ Agree n rest' rest := by
  induction used generalizing us with
  | nil => exact ⟨us, rfl, by simpa using h⟩
  | cons t used ih =>
    have ht : t.kind ≠ .eof := hused t List.mem_cons_self
    cases us with
    | nil =>
      have hend : pastEnd = t := h 0 (Nat.zero_le _)
      exact absurd (by rw [← hend]; rfl) ht
    | cons u us =>
      obtain rfl : u = t := h 0 (Nat.zero_le _)
      obtain ⟨rest', rfl, hrest⟩ := ih (fun x hx ↦ hused x (List.mem_cons_of_mem _ hx))
        fun i hi ↦ h (i + 1) (by simp; omega)
      exact ⟨rest', rfl, hrest⟩

/-! ## Decided parsers -/

namespace Parser

variable {α β : Type}

/-- What the parser does with the list is decided by the tokens that it takes, none of which ends
the input, and the token behind them; if it refuses that token, by one more. -/
structure DecidedAt (p : Parser α) (ts : List Token) : Prop where
  ok : ∀ a rest, p ts = .ok (a, rest) → ∃ used, ts = used ++ rest ∧ NoEnd used ∧
    ∀ rest', Agree 0 rest' rest → p (used ++ rest') = .ok (a, rest')
  error : ∀ e, p ts = .error e → ∃ used rest, ts = used ++ rest ∧ NoEnd used ∧
    e.IsAbout (front rest) ∧ ∀ rest', Agree 1 rest' rest → p (used ++ rest') = .error e

/-- What the parser does is decided in this way on every list. -/
def Decided (p : Parser α) : Prop := ∀ ts, p.DecidedAt ts

theorem noEnd_nil : NoEnd [] := fun _ h ↦ nomatch h

theorem decided_pure (a : α) : (pure a : Parser α).Decided := by
  refine fun ts ↦ ⟨?_, fun _ h ↦ (by cases h)⟩
  rintro _ _ ⟨⟩
  exact ⟨[], rfl, noEnd_nil, fun _ _ ↦ rfl⟩

theorem decided_kind : kind.Decided := by
  refine fun ts ↦ ⟨?_, fun _ h ↦ (by cases h)⟩
  rintro _ _ ⟨⟩
  exact ⟨[], rfl, noEnd_nil, fun rest' h ↦ by rw [List.nil_append, kind, h.front_eq]⟩

/-- A parser that refuses every token, for a reason that goes by the token. -/
theorem decided_of_refuses {p : Parser α} (problem : Token → ParseProblem)
    (hp : ∀ ts, p ts = fail (problem (front ts)) ts)
    (habout : ∀ t, (⟨t.span.start, problem t⟩ : ParseError).IsAbout t) : p.Decided := by
  refine fun ts ↦ ⟨fun a rest h ↦ ?_, fun e h ↦ ?_⟩
  · rw [hp] at h
    cases h
  · rw [hp] at h
    cases h
    refine ⟨[], ts, rfl, noEnd_nil, habout _, fun rest' h ↦ ?_⟩
    rw [List.nil_append, hp, fail, h.front_eq]

namespace DecidedAt

variable {p q : Parser α} {ts : List Token}

/-- One part after another. -/
theorem bind {f : α → Parser β} (hp : p.DecidedAt ts)
    (hf : ∀ a rest, p ts = .ok (a, rest) → (f a).DecidedAt rest) : (p >>= f).DecidedAt ts := by
  constructor
  · intro b rest h
    obtain ⟨a, middle, h₁, h₂⟩ := bind_eq_ok.1 h
    obtain ⟨first, rfl, hfirst, hp'⟩ := hp.ok a middle h₁
    obtain ⟨second, rfl, hsecond, hf'⟩ := (hf a middle h₁).ok b rest h₂
    refine ⟨first ++ second, by rw [List.append_assoc], ?_, fun rest' hrest ↦ ?_⟩
    · exact fun t ht ↦ (List.mem_append.1 ht).elim (hfirst t) (hsecond t)
    · have hmiddle := (hrest.append second).mono (Nat.zero_le _)
      rw [List.append_assoc, bind_eq_ok]
      exact ⟨a, second ++ rest', hp' _ hmiddle, hf' _ hrest⟩
  · intro e h
    rw [bind_apply] at h
    cases hts : p ts with
    | error e' =>
      rw [hts] at h
      cases h
      obtain ⟨used, rest, rfl, hused, habout, hp'⟩ := hp.error e hts
      refine ⟨used, rest, rfl, hused, habout, fun rest' hrest ↦ ?_⟩
      rw [bind_apply, hp' rest' hrest]
    | ok r =>
      obtain ⟨a, middle⟩ := r
      rw [hts] at h
      obtain ⟨first, rfl, hfirst, hp'⟩ := hp.ok a middle hts
      obtain ⟨second, rest, rfl, hsecond, habout, hf'⟩ := (hf a middle hts).error e h
      refine ⟨first ++ second, rest, by rw [List.append_assoc], ?_, habout, fun rest' hrest ↦ ?_⟩
      · exact fun t ht ↦ (List.mem_append.1 ht).elim (hfirst t) (hsecond t)
      · have hmiddle := (hrest.append second).mono (Nat.zero_le _)
        rw [List.append_assoc, bind_apply, hp' _ hmiddle]
        exact hf' rest' hrest

/-- A look at the front decides which of several parsers goes on. -/
theorem of_front (h : ∀ us, front us = front ts → q us = p us) (hp : p.DecidedAt ts) :
    q.DecidedAt ts := by
  constructor
  · intro a rest hq
    rw [h ts rfl] at hq
    obtain ⟨used, rfl, hused, hp'⟩ := hp.ok a rest hq
    refine ⟨used, rfl, hused, fun rest' hrest ↦ ?_⟩
    rw [h _ ((hrest.append used).front_eq), hp' rest' hrest]
  · intro e hq
    rw [h ts rfl] at hq
    obtain ⟨used, rest, rfl, hused, habout, hp'⟩ := hp.error e hq
    refine ⟨used, rest, rfl, hused, habout, fun rest' hrest ↦ ?_⟩
    rw [h _ ((hrest.append used).front_eq), hp' rest' hrest]

/-- A token is taken, and another parser goes on. -/
theorem cons {t : Token} (ht : t.kind ≠ .eof) (h : ∀ us, q (t :: us) = p us)
    (hp : p.DecidedAt ts) : q.DecidedAt (t :: ts) := by
  have hcons : ∀ used, NoEnd used → NoEnd (t :: used) := fun used hused ↦
    List.forall_mem_cons.2 ⟨ht, hused⟩
  constructor
  · intro a rest hq
    rw [h ts] at hq
    obtain ⟨used, rfl, hused, hp'⟩ := hp.ok a rest hq
    exact ⟨t :: used, rfl, hcons used hused, fun rest' hrest ↦ (h _).trans (hp' rest' hrest)⟩
  · intro e hq
    rw [h ts] at hq
    obtain ⟨used, rest, rfl, hused, habout, hp'⟩ := hp.error e hq
    exact ⟨t :: used, rest, rfl, hcons used hused, habout, fun rest' hrest ↦
      (h _).trans (hp' rest' hrest)⟩

end DecidedAt

end Parser

/-! ## The look at a second token -/

namespace Rules

/-- Whether a name with a step operator is at the front can be seen from two tokens. -/
theorem steppedName?_of_agree {us ts : List Token} (h : Agree 1 us ts)
    (hts : steppedName? ts = none) : steppedName? us = none := by
  match us with
  | [] => rfl
  | [u] => rfl
  | u :: v :: us =>
    have h₀ := h 0 (Nat.zero_le 1)
    have h₁ := h 1 (Nat.le_refl 1)
    match ts with
    | [] =>
      obtain rfl : u = pastEnd := h₀
      rfl
    | [t] =>
      obtain rfl : v = pastEnd := h₁
      rw [steppedName?]
      split <;> rfl
    | t :: x :: ts =>
      obtain rfl : u = t := h₀
      obtain rfl : v = x := h₁
      rw [steppedName?] at hts ⊢
      split
      · rename_i hname
        rw [if_pos hname, Option.map_eq_none_iff] at hts
        rw [hts]
        rfl
      · rfl

/-- Behind an expression that is no step, the second token is one of it or the one behind it. -/
theorem decided_forIncrement? {R : Rules} (h : R.expr.Decided) : R.forIncrement?.Decided := by
  intro ts
  by_cases hclose : (front ts).kind = .symbol .closeParen
  · refine (decided_pure none ts).of_front fun us hus ↦ ?_
    rw [forIncrement?, hus, if_pos hclose, pure_apply]
  cases hstep : steppedName? ts with
  | some r =>
    obtain ⟨e, rest⟩ := r
    obtain ⟨x, y, op, rfl, hx, hy, rfl⟩ := eq_of_steppedName? hstep
    have hop : stepOp? y.kind = some op := by
      rw [hy]
      cases op <;> rfl
    refine .cons (by rw [hx]; decide) (fun us ↦ rfl) (.cons (by rw [hy]; simp) ?_
      (decided_pure (some (.unary op (some (.identifier ⟨x.text, none⟩)))) rest))
    intro us
    have hfront : (front (x :: y :: us)).kind ≠ .symbol .closeParen := hclose
    rw [forIncrement?, if_neg hfront, steppedName?, if_pos hx, hop]
    rfl
  | none =>
    have hexpr : (some <$> R.expr).Decided := by
      rw [map_eq_pure_bind]
      exact fun ts ↦ (h ts).bind fun a rest _ ↦ decided_pure _ rest
    have heq : ∀ us, Agree 1 us ts → R.forIncrement? us = (some <$> R.expr) us := by
      intro us hus
      rw [forIncrement?, hus.front_eq, if_neg hclose, steppedName?_of_agree hus hstep]
    have hts := heq ts fun _ _ ↦ rfl
    constructor
    · intro a rest ha
      rw [hts] at ha
      obtain ⟨used, rfl, hused, hok⟩ := (hexpr ts).ok a rest ha
      refine ⟨used, rfl, hused, fun rest' hrest ↦ ?_⟩
      have hlength : 1 ≤ used.length := by
        have hlt := R.expr_shrinks.map some _ _ _ ha
        simp only [List.length_append] at hlt
        omega
      rw [heq _ ((hrest.append used).mono hlength), hok rest' hrest]
    · intro e he
      rw [hts] at he
      obtain ⟨used, rest, rfl, hused, habout, herror⟩ := (hexpr ts).error e he
      refine ⟨used, rest, rfl, hused, habout, fun rest' hrest ↦ ?_⟩
      rw [heq _ ((hrest.append used).mono (Nat.le_add_left 1 _)), herror rest' hrest]

end Rules

/-! ## The whole grammar -/

/-- Every operation of the grammar makes decided parsers of decided ones. -/
theorem localCongruence_decided : LocalCongruence fun _ p _ ts ↦ p.DecidedAt ts where
  pure := decided_pure
  bind := DecidedAt.bind
  kind := decided_kind
  refuse problem hp habout _ := decided_of_refuses problem hp habout
  ofFront hp _ h := h.of_front hp
  cons ht hp _ h := .cons ht hp h
  forIncrement? h := Rules.decided_forIncrement? h

/-- Every rule of the grammar is decided, whatever the limit and however much of it is left. -/
theorem Rules.decided_rules (limit room : Nat) :
    Related (fun _ p _ ↦ p.Decided) (rules limit room) (rules limit room) := by
  induction room with
  | zero =>
    have hfail : ∀ α : Type, (fail (.tooDeep limit) : Parser α).Decided := fun α ↦
      decided_of_refuses (fun _ ↦ .tooDeep limit) (fun _ ↦ rfl) fun _ ↦ ⟨rfl, trivial⟩
    exact ⟨hfail _, hfail _, hfail _, hfail _⟩
  | succ room ih => exact ih.outer localCongruence_decided.congruence

/-! ## Whole programs -/

/-- Where the input ends: at the first token that says so, or behind the last one. -/
def firstEnd (ts : List Token) : Nat := ts.findIdx fun t ↦ t.kind = .eof

theorem kind_tokenAt_firstEnd (ts : List Token) : (tokenAt ts (firstEnd ts)).kind = .eof := by
  induction ts with
  | nil => rfl
  | cons t ts ih =>
    rw [firstEnd] at ih ⊢
    rw [List.findIdx_cons]
    by_cases ht : t.kind = .eof
    · simp [ht]
    · simpa [ht] using ih

theorem firstEnd_append {used : List Token} (hused : NoEnd used) (rest : List Token) :
    firstEnd (used ++ rest) = used.length + firstEnd rest := by
  induction used with
  | nil => simp
  | cons t used ih =>
    have ht : t.kind ≠ .eof := hused t List.mem_cons_self
    have htail := ih fun x hx ↦ hused x (List.mem_cons_of_mem _ hx)
    rw [firstEnd] at htail ⊢
    rw [List.cons_append, List.findIdx_cons, htail]
    simp only [ht, decide_false, cond_false, List.length_cons]
    omega

theorem tokenAt_append_length (used rest : List Token) :
    tokenAt (used ++ rest) used.length = front rest := by
  induction used with
  | nil => exact (front_eq_tokenAt rest).symm
  | cons t used ih => exact ih

/-- The same for any limit of nesting. -/
theorem parseWithin_decided (limit : Nat) (ts : List Token) :
    (∀ p, parseWithin limit ts = .ok p →
      ∀ us, Agree (firstEnd ts) us ts → parseWithin limit us = .ok p) ∧
    ∀ e, parseWithin limit ts = .error e →
      ∃ i ≤ firstEnd ts, e.IsAbout (tokenAt ts i) ∧
        ∀ us, Agree (i + 1) us ts → parseWithin limit us = .error e := by
  have hbody : (rules limit limit).body.Decided :=
    (Rules.decided_rules limit limit).body localCongruence_decided.congruence
  constructor
  · intro p hp us hus
    obtain ⟨rest, hr⟩ := parseWithin_eq_ok.1 hp
    obtain ⟨used, rfl, hused, hok⟩ := (hbody ts).ok p.body rest hr
    rw [firstEnd_append hused] at hus
    obtain ⟨rest', rfl, hrest⟩ := hus.exists_append hused
    exact parseWithin_eq_ok.2 ⟨rest', hok rest' (hrest.mono (Nat.zero_le _))⟩
  · intro e he
    obtain ⟨used, rest, rfl, hused, habout, herror⟩ :=
      (hbody ts).error e (parseWithin_eq_error.1 he)
    refine ⟨used.length, ?_, by rwa [tokenAt_append_length], fun us hus ↦ ?_⟩
    · rw [firstEnd_append hused]
      exact Nat.le_add_right _ _
    · obtain ⟨rest', rfl, hrest⟩ := hus.exists_append hused
      exact parseWithin_eq_error.2 (herror rest' hrest)

/-- **The verdict is decided by what has been read.**  A program that is accepted is read the same
way from every list that agrees with the given one up to its first end of the input.  A program that
is refused is refused because of one token, which stands no further than that; the error holds its
place and says what it is, and every list that agrees up to the token behind it is refused with the
same error. -/
theorem parse_decided (ts : List Token) :
    (∀ p, parse ts = .ok p → ∀ us, Agree (firstEnd ts) us ts → parse us = .ok p) ∧
    ∀ e, parse ts = .error e →
      ∃ i ≤ firstEnd ts, e.IsAbout (tokenAt ts i) ∧
        ∀ us, Agree (i + 1) us ts → parse us = .error e :=
  parseWithin_decided maxNesting ts

/-- The text `;)` is accepted as `;` if the input ends between the two tokens, and else refused
because of the second one, also if something is written behind the end. -/
theorem parse_decided_semicolon :
    parse [⟨.symbol .semicolon, ";", ⟨0, 1⟩⟩] = .ok ⟨[.empty]⟩ ∧
    parse [⟨.symbol .semicolon, ";", ⟨0, 1⟩⟩, ⟨.symbol .closeParen, ")", ⟨1, 2⟩⟩, pastEnd, pastEnd,
        ⟨.symbol .plus, "+", ⟨2, 3⟩⟩] =
      .error ⟨1, .unexpected (.symbol .closeParen) ")"⟩ := by
  constructor
  · have hparse : parse [⟨.symbol .semicolon, ";", ⟨0, 1⟩⟩, pastEnd,
        ⟨.symbol .closeParen, ")", ⟨1, 2⟩⟩] = .ok ⟨[.empty]⟩ := by cbv
    have hagree : Agree 1 [⟨.symbol .semicolon, ";", ⟨0, 1⟩⟩]
        [⟨.symbol .semicolon, ";", ⟨0, 1⟩⟩, pastEnd, ⟨.symbol .closeParen, ")", ⟨1, 2⟩⟩] := by
      rw [Agree]
      decide
    exact (parse_decided _).1 _ hparse _ hagree
  · have hparse : parse [⟨.symbol .semicolon, ";", ⟨0, 1⟩⟩, ⟨.symbol .closeParen, ")", ⟨1, 2⟩⟩] =
        .error ⟨1, .unexpected (.symbol .closeParen) ")"⟩ := by cbv
    have hagree : Agree 3
        [⟨.symbol .semicolon, ";", ⟨0, 1⟩⟩, ⟨.symbol .closeParen, ")", ⟨1, 2⟩⟩, pastEnd, pastEnd,
          ⟨.symbol .plus, "+", ⟨2, 3⟩⟩]
        [⟨.symbol .semicolon, ";", ⟨0, 1⟩⟩, ⟨.symbol .closeParen, ")", ⟨1, 2⟩⟩] := by
      rw [Agree]
      decide
    obtain ⟨i, hi, -, h⟩ := (parse_decided _).2 _ hparse
    exact h _ (hagree.mono (Nat.succ_le_succ hi))

end SvLang
