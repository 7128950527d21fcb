import SvLang.Proofs.Grammar.Starts
import SvLang.Proofs.Grammar.Verdict
import SvLang.Proofs.Lexing.Tokens
import SvLang.Proofs.Numeric.Grammar

/-!
# Which tokens are unexpected

A token is called unexpected only where an expression has to start, so it is one that starts no
expression.  There is one exception in the grammar: a number token whose text is no number.  It does
not come up in a text that has been read, because every number token of such a text is a number
(`unexpected_of_tokenize`).

That the grammar is fair in this way is a fact about each parser by itself, and it is handed on by
all operations but the one that calls a token unexpected.
-/

set_option autoImplicit false

namespace SvLang

open SvLang.Parser

/-! ## Fair errors -/

/-- No expression starts with the token: its kind starts none, or it is a number token whose text is
no number. -/
def StartsNothing (found : TokenKind) (text : String) : Prop :=
  found.startsExpr → ∃ w, found = .number w ∧ Decimal.readFloat? text.toList = none

/-- The error calls no token unexpected with which an expression starts. -/
def ParseError.Fair (e : ParseError) : Prop :=
  ∀ found text, e.problem = .unexpected found text → StartsNothing found text

namespace Parser

variable {α β : Type}

/-- All errors of the parser on this list are fair. -/
def FairAt (p : Parser α) (ts : List Token) : Prop := ∀ e, p ts = .error e → e.Fair

/-- All errors of the parser are fair. -/
def Fair (p : Parser α) : Prop := ∀ ts, p.FairAt ts

theorem fair_of_succeeds {p : Parser α} (h : ∀ ts, ∃ r, p ts = .ok r) : p.Fair := by
  intro ts e he
  obtain ⟨r, hr⟩ := h ts
  rw [hr] at he
  simp at he

/-- To refuse a token for another reason is fair. -/
theorem fair_of_refuses {p : Parser α} (problem : Token → ParseProblem)
    (hp : ∀ ts, p ts = fail (problem (front ts)) ts)
    (hproblem : ∀ t found text, problem t ≠ .unexpected found text) : p.Fair := by
  intro ts e he found text hfound
  rw [hp] at he
  obtain rfl := Except.error.inj he
  exact absurd hfound (hproblem _ _ _)

theorem FairAt.bind {p : Parser α} {f : α → Parser β} {ts : List Token} (hp : p.FairAt ts)
    (hf : ∀ a, (f a).Fair) : (p >>= f).FairAt ts := by
  intro e he
  rw [bind_apply] at he
  cases hts : p ts with
  | error e' =>
    rw [hts] at he
    obtain rfl := Except.error.inj he
    exact hp _ hts
  | ok r =>
    rw [hts] at he
    exact hf _ _ e he

theorem Fair.bind {p : Parser α} {f : α → Parser β} (hp : p.Fair) (hf : ∀ a, (f a).Fair) :
    (p >>= f).Fair :=
  fun ts ↦ (hp ts).bind hf

theorem fair_branch {rule? : Token → Option (Parser α)} {otherwise : Parser α}
    (h : ∀ t rule, rule? t = some rule → rule.Fair)
    (ho : ∀ ts, (∀ t ∈ ts.head?, rule? t = none) → otherwise.FairAt ts) :
    (branch rule? otherwise).Fair := by
  rintro (_ | ⟨t, ts⟩) e he
  · exact ho [] (by simp) e he
  · rw [branch] at he
    split at he
    · rename_i rule hrule
      exact h t rule hrule ts e he
    · rename_i hrule
      refine ho (t :: ts) ?_ e he
      rintro _ ⟨⟩
      exact hrule

theorem fair_expect (place : Landmark) : (expect place).Fair := by
  rw [expect_eq_branch]
  refine fair_branch (fun t rule hrule ↦ ?_) fun ts _ ↦ ?_
  · rw [landmarkRule?] at hrule
    split at hrule
    · obtain rfl := Option.some.inj hrule
      exact fair_of_succeeds fun ts ↦ ⟨_, rfl⟩
    · simp at hrule
  · exact fair_of_refuses (fun t ↦ .expected place t.kind) (fun _ ↦ rfl) (by simp) ts

theorem fair_manyUntil {stop : TokenKind → Bool} {item : Parser α} {hi : item.Shrinks}
    (h : item.Fair) : (manyUntil stop item hi).Fair := by
  intro ts e
  rw [manyUntil]
  fun_induction manyUntilFrom stop item hi [] ts with
  | case1 => simp
  | case2 done ts _ e' he' =>
    rintro ⟨⟩
    exact h ts _ he'
  | case3 done ts _ a rest _ _ ih => exact ih

theorem fair_extend {more? : Token → Option (α → Parser α)}
    {hm : ∀ t rule, more? t = some rule → ∀ a, (rule a).Keeps}
    (h : ∀ t rule, more? t = some rule → ∀ a, (rule a).Fair) (a : α) :
    Fair (extend more? hm a) := by
  intro ts e
  fun_induction extend more? hm a ts with
  | case1 => simp
  | case2 => simp
  | case3 a t ts rule hr e' he' =>
    rintro ⟨⟩
    exact h t rule hr a ts _ he'
  | case4 a t ts rule hr b rest _ _ ih => exact ih

theorem fair_forIncrement? {R : Rules} (h : R.expr.Fair) : R.forIncrement?.Fair := by
  intro ts e he
  rw [Rules.forIncrement?] at he
  split at he
  · simp at he
  · split at he
    · simp at he
    · rw [map_eq_pure_bind] at he
      exact h.bind (fun a ↦ fair_of_succeeds fun ts ↦ ⟨_, rfl⟩) ts e he

theorem exists_of_rel {r : α → β → Prop} {o : Option α} {o' : Option β} {a : α}
    (h : Option.Rel r o o') (ho : o = some a) : ∃ b, r a b := by
  cases h with
  | none => simp at ho
  | some h =>
    obtain rfl := Option.some.inj ho
    exact ⟨_, h⟩

/-- Every operation of the grammar but one makes fair parsers of fair ones. -/
theorem compositional_fair : Compositional fun _ p _ ↦ p.Fair where
  pure a := fair_of_succeeds fun ts ↦ ⟨(a, ts), rfl⟩
  bind hp hf := hp.bind hf
  kind := fair_of_succeeds fun ts ↦ ⟨((front ts).kind, ts), rfl⟩
  expect place _ _ h := (fair_expect place).bind fun _ ↦ h
  expectName h := (fair_expect .name).bind h
  missingSemicolon name :=
    fair_of_refuses (fun _ ↦ .missingSemicolon name) (fun _ ↦ rfl) (by simp)
  malformedParameter :=
    fair_of_refuses (fun t ↦ .malformedParameter t.kind) (fun _ ↦ rfl) (by simp)
  malformedCondition :=
    fair_of_refuses (fun t ↦ .malformedForCondition t.kind) (fun _ ↦ rfl) (by simp)
  branch _ _ h ho := by
    refine fair_branch (fun t rule hrule ↦ ?_) fun ts _ ↦ ho ts
    obtain ⟨-, hfair⟩ := exists_of_rel (h t) hrule
    exact hfair
  manyUntil _ h := fair_manyUntil h
  extend _ _ h := by
    refine fair_extend fun t rule hrule ↦ ?_
    obtain ⟨-, hfair⟩ := exists_of_rel (h t) hrule
    exact hfair
  forIncrement? h := fair_forIncrement? h

end Parser

/-! ## The two places that fall back on it -/

namespace Rules

/-- Where there is no rule for a primary expression, the token starts none. -/
theorem startsNothing_of_primaryRule? {R : Rules} {t : Token} (h : R.primaryRule? t = none) :
    StartsNothing t.kind t.text := by
  intro hstarts
  rw [primaryRule?] at h
  generalize t.kind = k at h hstarts ⊢
  cases k with
  | number w => exact ⟨w, rfl, Option.map_eq_none_iff.1 h⟩
  | identifier | text => simp at h
  | symbol s => cases s <;> first | exact absurd hstarts Bool.false_ne_true | simp at h
  | keyword w => cases w <;> first | exact absurd hstarts Bool.false_ne_true | simp at h
  | typeName | eof => exact absurd hstarts Bool.false_ne_true

theorem fair_primary {R : Rules} (h : Inner (fun _ p _ ↦ p.Fair) R R) : R.primary.Fair := by
  refine fair_branch (fun t rule hrule ↦ ?_) fun ts hnone e he found text hfound ↦ ?_
  · have hrel := Inner.primaryRule? (S := R) compositional_fair h.expr h.operand t
    obtain ⟨-, hfair⟩ := exists_of_rel hrel hrule
    exact hfair
  · rw [unexpected] at he
    obtain rfl := Except.error.inj he
    obtain ⟨rfl, rfl⟩ := ParseProblem.unexpected.inj hfound
    rcases ts with _ | ⟨t, ts⟩
    · rintro ⟨⟩
    · exact startsNothing_of_primaryRule? (hnone t rfl)

/-- Behind an `else`, the rule for an `if` is asked only where there is one. -/
structure FairWithin (R : Rules) : Prop where
  inner : Inner (fun _ p _ ↦ p.Fair) R R
  elseIf : ∀ ts, (front ts).kind = .keyword .ifWord → R.elseIf.FairAt ts

namespace FairWithin

variable {R : Rules} (h : R.FairWithin)

include h

theorem elseBranch : R.elseBranch.Fair := by
  intro ts e he
  change (if (front ts).kind = .keyword .ifWord then R.elseIf >>= fun nested ↦ pure [nested]
    else R.block) ts = .error e at he
  split at he
  · rename_i hif
    exact (h.elseIf ts hif).bind (fun _ ↦ fair_of_succeeds fun ts ↦ ⟨_, rfl⟩) e he
  · exact h.inner.block compositional_fair ts e he

theorem outer : R.outer.FairWithin := by
  have hprimary := fair_primary h.inner
  have hifElse : R.ifElse.Fair := h.inner.ifElse compositional_fair h.elseBranch
  constructor
  case inner =>
    constructor
    case expr => exact Inner.comparison (S := R) compositional_fair hprimary
    case operand => exact hprimary
    case stmt => exact h.inner.statement compositional_fair hprimary h.elseBranch
  case elseIf =>
    intro ts hts
    rcases ts with _ | ⟨t, ts⟩
    · simp [front, pastEnd] at hts
    · intro e he
      change onKind (.keyword .ifWord) R.ifElse unexpected (t :: ts) = .error e at he
      rw [onKind, branch_of_some (if_pos hts)] at he
      exact hifElse ts e he

end FairWithin

/-- All rules of the grammar are fair, whatever the limit and however much of it is left. -/
theorem fairWithin_rules (limit room : Nat) : (rules limit room).FairWithin := by
  induction room with
  | zero =>
    have hfail : ∀ α : Type, (fail (.tooDeep limit) : Parser α).Fair := fun α ↦
      fair_of_refuses (fun _ ↦ .tooDeep limit) (fun _ ↦ rfl) (by simp)
    exact ⟨⟨hfail _, hfail _, hfail _⟩, fun ts _ ↦ hfail _ ts⟩
  | succ room ih => exact ih.outer

end Rules

/-- The error of a program is fair. -/
theorem fair_of_parse {ts : List Token} {e : ParseError} (h : parse ts = .error e) : e.Fair :=
  (Rules.fairWithin_rules maxNesting maxNesting).inner.body compositional_fair ts e
    (parseWithin_eq_error.1 h)

/-! ## The tokens of a text -/

/-- A number is written as the grammar of numbers asks for. -/
theorem Lexeme.WellFormed.floatText_text {l : Lexeme} (hl : l.WellFormed) {w : Width}
    (h : l.kind = .number w) : Decimal.FloatText l.text := by
  cases l with
  | whole digits =>
    have hnumber := Decimal.FloatText.number (.inl rfl) (.whole hl) .none
    rwa [List.nil_append, List.append_nil] at hnumber
  | decimal digits fraction =>
    have hne : digits ++ fraction ≠ [] := List.append_ne_nil_of_left_ne_nil hl.1.1 _
    have hnumber := Decimal.FloatText.number (.inl rfl) (.point hl.1.2 hl.2.2 hne) .none
    rwa [List.nil_append, List.append_nil] at hnumber
  | word letters =>
    rw [Lexeme.kind] at h
    rcases TokenKind.ofWord_cases (String.ofList letters) with
      ⟨t, -, hword⟩ | ⟨k, -, hword⟩ | ⟨-, -, hword⟩ <;> simp [hword] at h
  | symbol | quoted => cases h

/-- A token of the list, or what stands behind the list. -/
theorem tokenAt_mem {ts : List Token} {i : Nat} (h : (tokenAt ts i).kind ≠ .eof) :
    tokenAt ts i ∈ ts := by
  rw [tokenAt, List.getD_eq_getElem?_getD] at h ⊢
  cases hi : ts[i]? with
  | none =>
    rw [hi] at h
    exact absurd rfl h
  | some t => exact List.mem_of_getElem? hi

/-- **The number tokens of a text are numbers**, and so the grammar finds no token unexpected with
which an expression starts. -/
theorem unexpected_of_tokenize {source : String} {ts : List Token} (h : tokenize source = .ok ts) :
    (∀ t ∈ ts, ∀ w, t.kind = .number w →
      Decimal.FloatText t.text.toList ∧ (Decimal.readFloat? t.text.toList).isSome) ∧
    ∀ e found text, parse ts = .error e → e.problem = .unexpected found text →
      ¬ found.startsExpr := by
  have hfloat : ∀ t ∈ ts, ∀ w, t.kind = .number w → Decimal.FloatText t.text.toList := by
    intro t ht w hw
    obtain ⟨l, hl, hkind, htext⟩ := (tokenize_eq_ok_iff.1 h).exists_lexeme ht (by simp [hw])
    rw [htext, String.toList_ofList]
    exact hl.floatText_text (hkind.symm.trans hw)
  refine ⟨fun t ht w hw ↦ ?_, ?_⟩
  · exact ⟨hfloat t ht w hw, Decimal.isSome_readFloat?_iff.2 (hfloat t ht w hw)⟩
  intro e found text herror hfound hstarts
  obtain ⟨w, rfl, hnone⟩ := fair_of_parse herror found text hfound hstarts
  -- The token that is refused is one of the text.
  obtain ⟨i, -, ⟨-, habout⟩, -⟩ := (parse_decided ts).2 e herror
  rw [hfound] at habout
  obtain ⟨hkind, rfl⟩ := habout
  have hmem : tokenAt ts i ∈ ts := tokenAt_mem (by simp [← hkind])
  have hread := Decimal.isSome_readFloat?_iff.2 (hfloat _ hmem w hkind.symm)
  rw [hnone] at hread
  simp at hread

/-- Two numbers, in a text that is refused because of what stands in front of them. -/
theorem unexpected_of_tokenize_star : ∃ ts, tokenize "* 1 2.5" = .ok ts ∧
    (∀ t ∈ ts, ∀ w, t.kind = .number w →
      Decimal.FloatText t.text.toList ∧ (Decimal.readFloat? t.text.toList).isSome) ∧
    parse ts = .error ⟨0, .unexpected (.symbol .star) "*"⟩ ∧
    ¬ (TokenKind.symbol .star).startsExpr := by
  have htokenize : tokenize "* 1 2.5" = .ok
      [⟨.symbol .star, "*", .between 0 1⟩, ⟨.number .numeric, "1", .between 2 3⟩,
        ⟨.number .float, "2.5", .between 4 7⟩, .endOfFile 7] :=
    eq_ok_of_toOption (by decide +kernel)
  have hparse : parse [⟨.symbol .star, "*", .between 0 1⟩, ⟨.number .numeric, "1", .between 2 3⟩,
      ⟨.number .float, "2.5", .between 4 7⟩, .endOfFile 7] =
      .error ⟨0, .unexpected (.symbol .star) "*"⟩ := by cbv
  obtain ⟨hnumbers, hunexpected⟩ := unexpected_of_tokenize htokenize
  exact ⟨_, htokenize, hnumbers, hparse, hunexpected _ _ _ hparse rfl⟩

end SvLang
