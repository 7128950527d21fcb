import SvLang.Proofs.Grammar.Congruence
import SvLang.Proofs.Grammar.Rounds

/-!
# Relations along the list of tokens

A relation between what two parsers do with *one* list of tokens is easier to hand on than one that
speaks of all lists: a sequence asks for its second part only on the list that the first one leaves,
and a choice only on the list behind the token that it takes.  If the operations that go by the
front token hand on such a relation (`Parser.LocalCongruence`), the loops keep it, by induction on
the list, and so does the whole grammar (`Parser.LocalCongruence.congruence`).
-/

set_option autoImplicit false

namespace SvLang

open SvLang.Parser

/-! ## From one list to the next -/

/-- The error is about this token: it holds where the token was written, and wherever it says what
was found, it says what the token is. -/
def ParseError.IsAbout (e : ParseError) (t : Token) : Prop :=
  e.offset = t.span.start ∧
    match e.problem with
    | .expected _ found | .malformedForCondition found | .malformedParameter found => found = t.kind
    | .unexpected found text => found = t.kind ∧ text = t.text
    | .missingSemicolon _ | .tooDeep _ => True

/-- What is not the end of the input stands in the list. -/
theorem exists_cons_of_front {ts : List Token} (h : (front ts).kind ≠ .eof) :
    ∃ t rest, ts = t :: rest ∧ front ts = t := by
  cases ts with
  | nil => exact absurd rfl h
  | cons t rest => exact ⟨t, rest, rfl, rfl⟩

/-- A relation between what two parsers do with a list, which the operations that go by the front
token hand on from one list to the next. -/
structure Parser.LocalCongruence (At : ∀ α : Type, Parser α → Parser α → List Token → Prop) :
    Prop where
  pure {α : Type} (a : α) (ts : List Token) : At α (pure a) (pure a) ts
  bind {α β : Type} {p q : Parser α} {f g : α → Parser β} {ts : List Token} (h : At α p q ts)
    (hf : ∀ a rest, p ts = .ok (a, rest) → At β (f a) (g a) rest) :
    At β (p >>= f) (q >>= g) ts
  kind (ts : List Token) : At TokenKind kind kind ts
  /-- A parser that refuses every token, for a reason that goes by the token and not by the
  nesting. -/
  refuse {α : Type} {p : Parser α} (problem : Token → ParseProblem)
    (hp : ∀ ts, p ts = fail (problem (front ts)) ts)
    (habout : ∀ t, (⟨t.span.start, problem t⟩ : ParseError).IsAbout t)
    (hdeep : ∀ t limit, problem t ≠ .tooDeep limit) (ts : List Token) : At α p p ts
  /-- The front token decides which parsers go on. -/
  ofFront {α : Type} {p p' q q' : Parser α} {ts : List Token}
    (hp : ∀ us, front us = front ts → p us = p' us)
    (hq : ∀ us, front us = front ts → q us = q' us) (h : At α p' q' ts) : At α p q ts
  /-- The front token is taken, and other parsers go on. -/
  cons {α : Type} {p p' q q' : Parser α} {t : Token} {ts : List Token} (ht : t.kind ≠ .eof)
    (hp : ∀ us, p (t :: us) = p' us) (hq : ∀ us, q (t :: us) = q' us) (h : At α p' q' ts) :
    At α p q (t :: ts)
  forIncrement? {R S : Rules} (h : ∀ ts, At Expr R.expr S.expr ts) (ts : List Token) :
    At (Option Expr) R.forIncrement? S.forIncrement? ts

namespace Parser.LocalCongruence

variable {At : ∀ α : Type, Parser α → Parser α → List Token → Prop} (hAt : LocalCongruence At)
  {α : Type}

include hAt

theorem branch {rule? rule'? : Token → Option (Parser α)} {otherwise otherwise' : Parser α}
    {ts : List Token} (heof : ∀ t, t.kind = .eof → rule? t = none)
    (h : ∀ t, Option.Rel (fun rule rule' ↦ ∀ rest, ts = t :: rest → At α rule rule' rest)
      (rule? t) (rule'? t)) (ho : At α otherwise otherwise' ts) :
    At α (branch rule? otherwise) (branch rule'? otherwise') ts := by
  have hrel := h (front ts)
  generalize hr : rule? (front ts) = rule, hr' : rule'? (front ts) = rule' at hrel
  cases hrel with
  | none =>
    exact hAt.ofFront (fun us hus ↦ branch_of_none (by rw [hus, hr]))
      (fun us hus ↦ branch_of_none (by rw [hus, hr'])) ho
  | some hrel =>
    have hkind : (front ts).kind ≠ .eof := by
      intro hk
      rw [heof _ hk] at hr
      cases hr
    obtain ⟨t, rest, rfl, ht⟩ := exists_cons_of_front hkind
    rw [ht] at hr hr' hkind
    exact hAt.cons hkind (branch_of_some hr) (branch_of_some hr') (hrel rest (by rw [ht]))

/-- To refuse a token in the name of a place is to say what it is. -/
theorem expect (place : Landmark) (ts : List Token) :
    At String (expect place) (expect place) ts := by
  rw [expect_eq_branch]
  refine hAt.branch (fun t ht ↦ if_neg ?_) (fun t ↦ ?_) ?_
  · rw [ht]
    exact place.kind_ne_eof.symm
  · rw [landmarkRule?]
    split
    · exact .some fun rest _ ↦ hAt.pure _ rest
    · exact .none
  · exact hAt.refuse (fun t ↦ .expected place t.kind) (fun _ ↦ rfl) (fun _ ↦ ⟨rfl, rfl⟩)
      (by simp) ts

theorem manyUntil {stop : TokenKind → Bool} {item item' : Parser α} {hi : item.Shrinks}
    {hi' : item'.Shrinks} (h : ∀ ts, At α item item' ts) (ts : List Token) :
    At (List α) (manyUntil stop item hi) (manyUntil stop item' hi') ts := by
  have loop : ∀ n done ts, ts.length = n →
      At (List α) (manyUntilFrom stop item hi done) (manyUntilFrom stop item' hi' done) ts := by
    intro n
    induction n using Nat.strongRecOn with
    | ind n ih =>
      rintro done ts rfl
      by_cases hstop : stop (front ts).kind
      · refine hAt.ofFront (fun us hus ↦ ?_) (fun us hus ↦ ?_) (hAt.pure done.reverse ts) <;>
          rw [manyUntilFrom_eq, hus, if_pos hstop, pure_apply]
      · have hround := hAt.bind (f := fun a ↦ manyUntilFrom stop item hi (a :: done))
          (g := fun a ↦ manyUntilFrom stop item' hi' (a :: done)) (h ts)
          fun a rest hp ↦ ih _ (hi _ _ _ hp) _ rest rfl
        refine hAt.ofFront (fun us hus ↦ ?_) (fun us hus ↦ ?_) hround <;>
          rw [manyUntilFrom_eq, hus, if_neg hstop]
  exact loop ts.length [] ts rfl

theorem extend {more? more'? : Token → Option (α → Parser α)}
    {hm : ∀ t rule, more? t = some rule → ∀ a, (rule a).Keeps}
    {hm' : ∀ t rule, more'? t = some rule → ∀ a, (rule a).Keeps}
    (heof : ∀ t, t.kind = .eof → more? t = none)
    (h : ∀ t, Option.Rel (fun r r' ↦ ∀ a ts, At α (r a) (r' a) ts) (more? t) (more'? t)) (a : α)
    (ts : List Token) : At α (extend more? hm a) (extend more'? hm' a) ts := by
  have loop : ∀ n a ts, ts.length = n →
      At α (Parser.extend more? hm a) (Parser.extend more'? hm' a) ts := by
    intro n
    induction n using Nat.strongRecOn with
    | ind n ih =>
      rintro a ts rfl
      rw [extend_eq_branch, extend_eq_branch]
      refine hAt.branch (fun t ht ↦ by rw [heof t ht]; rfl) (fun t ↦ ?_) (hAt.pure a ts)
      have hrel := h t
      have hkeeps := hm t
      generalize more? t = rule, more'? t = rule' at hrel hkeeps
      cases hrel with
      | none => exact .none
      | @some rule rule' hrule =>
        refine .some fun rest hts ↦ hAt.bind (hrule a rest) fun b rest' hp ↦ ih _ ?_ b rest' rfl
        rw [hts]
        exact Nat.lt_succ_of_le (hkeeps rule rfl a _ _ _ hp)
  exact loop ts.length a ts rfl

/-- A relation that is handed on from one list to the next holds on all lists wherever it does for
the rules one level deeper. -/
theorem congruence : Congruence fun α p q ↦ ∀ ts, At α p q ts where
  pure := hAt.pure
  bind h hf ts := hAt.bind (h ts) fun a rest _ ↦ hf a rest
  kind := hAt.kind
  expect place _ _ h ts := hAt.bind (hAt.expect place ts) fun _ rest _ ↦ h rest
  expectName h ts := hAt.bind (hAt.expect .name ts) fun x rest _ ↦ h x rest
  unexpected :=
    hAt.refuse (fun t ↦ .unexpected t.kind t.text) (fun _ ↦ rfl) (fun _ ↦ ⟨rfl, rfl, rfl⟩)
      (by simp)
  missingSemicolon name :=
    hAt.refuse (fun _ ↦ .missingSemicolon name) (fun _ ↦ rfl) (fun _ ↦ ⟨rfl, trivial⟩) (by simp)
  malformedParameter :=
    hAt.refuse (fun t ↦ .malformedParameter t.kind) (fun _ ↦ rfl) (fun _ ↦ ⟨rfl, rfl⟩) (by simp)
  malformedCondition :=
    hAt.refuse (fun t ↦ .malformedForCondition t.kind) (fun _ ↦ rfl) (fun _ ↦ ⟨rfl, rfl⟩) (by simp)
  branch {_ rule? rule'? _ _} heof _ h ho ts := by
    refine hAt.branch heof (fun t ↦ ?_) (ho ts)
    have hrel := h t
    generalize rule? t = rule, rule'? t = rule' at hrel
    cases hrel with
    | none => exact .none
    | some hrel => exact .some fun rest _ ↦ hrel rest
  manyUntil _ h := hAt.manyUntil h
  extend heof _ h a ts := hAt.extend heof h a ts
  forIncrement? h ts := hAt.forIncrement? h ts

end Parser.LocalCongruence

end SvLang
