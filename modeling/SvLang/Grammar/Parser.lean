import SvLang.Grammar.Error

/-!
# Parsers over token lists

A parser takes tokens off the front of a list and returns what it has read with the tokens that are
left, or the first error.  Behind the end of the list it sees a token of kind `eof`.

## What is here

* `Parser`, its monad, and the parsers of one token: `kind`, `expect`, `fail`.
* `Parser.Keeps` and `Parser.Shrinks`: a parser never leaves more tokens than it was given, or
  always leaves fewer.  Both are composed through the monad, and they are what makes the loops end.
* `Parser.branch`, which takes the front token if that starts something; and the two loops of the
  grammar, `Parser.manyUntil` and `Parser.extend`.  Each runs at most once per token that is left.

Tokens are taken by `expect`, `branch` and `extend` only, and never without a look at their kind.
-/

set_option autoImplicit false

namespace SvLang

/-- A parser of values of type `α`. -/
def Parser (α : Type) : Type := List Token → Except ParseError (α × List Token)

namespace Parser

variable {α β : Type}

instance : Monad Parser where
  pure a := fun ts ↦ .ok (a, ts)
  bind p f := fun ts ↦
    match p ts with
    | .ok (a, rest) => f a rest
    | .error e => .error e

theorem pure_apply (a : α) (ts : List Token) : (pure a : Parser α) ts = .ok (a, ts) := rfl

theorem bind_apply (p : Parser α) (f : α → Parser β) (ts : List Token) :
    (p >>= f) ts = match p ts with
      | .ok (a, rest) => f a rest
      | .error e => .error e := rfl

/-- A sequence succeeds exactly if both of its parts do. -/
theorem bind_eq_ok {p : Parser α} {f : α → Parser β} {ts rest : List Token} {b : β} :
    (p >>= f) ts = .ok (b, rest) ↔
      ∃ a middle, p ts = .ok (a, middle) ∧ f a middle = .ok (b, rest) := by
  rw [bind_apply]
  cases p ts with
  | error e => simp
  | ok r => obtain ⟨a, middle⟩ := r; simp [and_assoc]

theorem bind_pure_apply (p : Parser α) : (p >>= fun a ↦ pure a) = p := by
  funext ts
  rw [bind_apply]
  cases p ts <;> rfl

theorem bind_assoc_apply {γ : Type} (p : Parser α) (f : α → Parser β) (g : β → Parser γ) :
    (p >>= f) >>= g = p >>= fun a ↦ f a >>= g := by
  funext ts
  simp only [bind_apply]
  cases p ts <;> rfl

instance : LawfulMonad Parser :=
  .mk' Parser bind_pure_apply (fun _ _ ↦ rfl) bind_assoc_apply

/-! ## One token -/

/-- What stands behind the last token. -/
def pastEnd : Token := ⟨.eof, "", ⟨0, 0⟩⟩

/-- The token at the front. -/
def front (ts : List Token) : Token := ts.headD pastEnd

/-- The kind of the token at the front, which is left there. -/
def kind : Parser TokenKind := fun ts ↦ .ok ((front ts).kind, ts)

/-- Refuses the token at the front. -/
def fail (problem : ParseProblem) : Parser α := fun ts ↦ .error ⟨(front ts).span.start, problem⟩

/-- Refuses the token at the front because nothing starts with it. -/
def unexpected : Parser α := fun ts ↦ fail (.unexpected (front ts).kind (front ts).text) ts

/-- Takes the token that has to stand at a place and returns its text. -/
def expect (place : Landmark) : Parser String
  | t :: ts =>
    if t.kind = place.kind then .ok (t.text, ts)
    else fail (.expected place t.kind) (t :: ts)
  | [] => fail (.expected place .eof) []

/-! ## How much is left -/

/-- The parser never leaves more tokens than it was given. -/
def Keeps (p : Parser α) : Prop :=
  ∀ ts a rest, p ts = .ok (a, rest) → rest.length ≤ ts.length

/-- Whenever the parser succeeds, it has taken at least one token. -/
def Shrinks (p : Parser α) : Prop :=
  ∀ ts a rest, p ts = .ok (a, rest) → rest.length < ts.length

theorem Shrinks.keeps {p : Parser α} (h : p.Shrinks) : p.Keeps :=
  fun ts a rest hp ↦ Nat.le_of_lt (h ts a rest hp)

theorem keeps_pure (a : α) : (pure a : Parser α).Keeps := by
  rintro ts b rest ⟨⟩
  exact Nat.le_refl _

theorem keeps_kind : kind.Keeps := by
  rintro ts a rest ⟨⟩
  exact Nat.le_refl _

theorem shrinks_fail (problem : ParseProblem) : (fail problem : Parser α).Shrinks := by
  rintro ts a rest ⟨⟩

theorem shrinks_unexpected : (unexpected : Parser α).Shrinks := by
  rintro ts a rest ⟨⟩

theorem shrinks_expect (place : Landmark) : (expect place).Shrinks := by
  intro ts a rest h
  cases ts with
  | nil => cases h
  | cons t ts =>
    rw [expect] at h
    split at h
    · cases h
      exact Nat.lt_succ_self _
    · cases h

theorem keeps_expect (place : Landmark) : (expect place).Keeps := (shrinks_expect place).keeps

theorem Keeps.bind {p : Parser α} {f : α → Parser β} (hp : p.Keeps) (hf : ∀ a, (f a).Keeps) :
    (p >>= f).Keeps := by
  intro ts b rest h
  obtain ⟨a, middle, h₁, h₂⟩ := bind_eq_ok.1 h
  exact Nat.le_trans (hf _ _ _ _ h₂) (hp _ _ _ h₁)

/-- A sequence shrinks if its first part does. -/
theorem Shrinks.bind {p : Parser α} {f : α → Parser β} (hp : p.Shrinks) (hf : ∀ a, (f a).Keeps) :
    (p >>= f).Shrinks := by
  intro ts b rest h
  obtain ⟨a, middle, h₁, h₂⟩ := bind_eq_ok.1 h
  exact Nat.lt_of_le_of_lt (hf _ _ _ _ h₂) (hp _ _ _ h₁)

/-- A sequence shrinks if its second part does. -/
theorem Keeps.bind_shrinks {p : Parser α} {f : α → Parser β} (hp : p.Keeps)
    (hf : ∀ a, (f a).Shrinks) : (p >>= f).Shrinks := by
  intro ts b rest h
  obtain ⟨a, middle, h₁, h₂⟩ := bind_eq_ok.1 h
  exact Nat.lt_of_lt_of_le (hf _ _ _ _ h₂) (hp _ _ _ h₁)

theorem Keeps.map {p : Parser α} (hp : p.Keeps) (f : α → β) : (f <$> p).Keeps := by
  rw [map_eq_pure_bind]
  exact hp.bind fun _ ↦ keeps_pure _

theorem Shrinks.map {p : Parser α} (hp : p.Shrinks) (f : α → β) : (f <$> p).Shrinks := by
  rw [map_eq_pure_bind]
  exact hp.bind fun _ ↦ keeps_pure _

/-! ## A choice by the front token -/

/-- If `rule?` has a rule for the token at the front, takes the token and goes on with the rule;
else leaves it and goes on with `otherwise`. -/
def branch (rule? : Token → Option (Parser α)) (otherwise : Parser α) : Parser α
  | [] => otherwise []
  | t :: ts =>
    match rule? t with
    | some rule => rule ts
    | none => otherwise (t :: ts)

/-- If the token at the front is of kind `k`, takes it and goes on with `rule`; else leaves it and
goes on with `otherwise`. -/
def onKind (k : TokenKind) (rule otherwise : Parser α) : Parser α :=
  branch (fun t ↦ if t.kind = k then some rule else none) otherwise

theorem keeps_branch {rule? : Token → Option (Parser α)} {otherwise : Parser α}
    (hr : ∀ t rule, rule? t = some rule → rule.Keeps) (ho : otherwise.Keeps) :
    (branch rule? otherwise).Keeps := by
  intro ts a rest h
  cases ts with
  | nil => exact ho _ _ _ h
  | cons t ts =>
    rw [branch] at h
    split at h
    · exact Nat.le_succ_of_le (hr t _ (by assumption) _ _ _ h)
    · exact ho _ _ _ h

theorem keeps_onKind {k : TokenKind} {rule otherwise : Parser α} (hr : rule.Keeps)
    (ho : otherwise.Keeps) : (onKind k rule otherwise).Keeps := by
  refine keeps_branch (fun t r h ↦ ?_) ho
  split at h
  · cases h
    exact hr
  · cases h

theorem shrinks_branch {rule? : Token → Option (Parser α)} {otherwise : Parser α}
    (hr : ∀ t rule, rule? t = some rule → rule.Keeps) (ho : otherwise.Shrinks) :
    (branch rule? otherwise).Shrinks := by
  intro ts a rest h
  cases ts with
  | nil => exact ho _ _ _ h
  | cons t ts =>
    rw [branch] at h
    split at h
    · exact Nat.lt_succ_of_le (hr t _ (by assumption) _ _ _ h)
    · exact ho _ _ _ h

theorem shrinks_onKind {k : TokenKind} {rule otherwise : Parser α} (hr : rule.Keeps)
    (ho : otherwise.Shrinks) : (onKind k rule otherwise).Shrinks := by
  refine shrinks_branch (fun t r h ↦ ?_) ho
  split at h
  · cases h
    exact hr
  · cases h

/-! ## Loops -/

/-- Reads items until the kind at the front is one to stop at.  The items that are already `done`
come first, the latest of them at the front. -/
def manyUntilFrom (stop : TokenKind → Bool) (item : Parser α) (hi : item.Shrinks) (done : List α)
    (ts : List Token) : Except ParseError (List α × List Token) :=
  if stop (front ts).kind then .ok (done.reverse, ts)
  else
    match h : item ts with
    | .error e => .error e
    | .ok (a, rest) =>
      have := hi ts a rest h
      manyUntilFrom stop item hi (a :: done) rest
termination_by ts.length

/-- Reads items until the kind at the front is one to stop at. -/
def manyUntil (stop : TokenKind → Bool) (item : Parser α) (hi : item.Shrinks) :
    Parser (List α) :=
  manyUntilFrom stop item hi []

theorem keeps_manyUntil (stop : TokenKind → Bool) (item : Parser α) (hi : item.Shrinks) :
    (manyUntil stop item hi).Keeps := by
  intro ts
  rw [manyUntil]
  fun_induction manyUntilFrom stop item hi [] ts with
  | case1 => rintro as rest ⟨⟩; exact Nat.le_refl _
  | case2 => rintro as rest ⟨⟩
  | case3 done ts _ a rest' _ hlt ih =>
    intro as rest h
    exact Nat.le_trans (ih as rest h) (Nat.le_of_lt hlt)

/-- As long as `more?` has a rule for the token at the front, takes the token and extends what has
been read by the rule. -/
def extend (more? : Token → Option (α → Parser α))
    (hm : ∀ t rule, more? t = some rule → ∀ a, (rule a).Keeps) (a : α) (ts : List Token) :
    Except ParseError (α × List Token) :=
  match ts with
  | [] => .ok (a, [])
  | t :: ts =>
    match hr : more? t with
    | none => .ok (a, t :: ts)
    | some rule =>
      match h : rule a ts with
      | .error e => .error e
      | .ok (b, rest) =>
        have := hm t rule hr a ts b rest h
        extend more? hm b rest
termination_by ts.length

theorem keeps_extend (more? : Token → Option (α → Parser α))
    (hm : ∀ t rule, more? t = some rule → ∀ a, (rule a).Keeps) (a : α) :
    Keeps (extend more? hm a) := by
  intro ts
  fun_induction extend more? hm a ts with
  | case1 => rintro b rest ⟨⟩; exact Nat.le_refl _
  | case2 => rintro b rest ⟨⟩; exact Nat.le_refl _
  | case3 => rintro b rest ⟨⟩
  | case4 a t ts rule hr b rest' _ hle ih =>
    intro c rest h
    exact Nat.le_trans (ih c rest h) (Nat.le_succ_of_le hle)

/-! ## Lists -/

/-- The rule that reads one more item behind a token of kind `lead`. -/
def another? (lead : TokenKind) (item : Parser α) (t : Token) : Option (List α → Parser (List α)) :=
  if t.kind = lead then some fun done ↦ (· :: done) <$> item else none

/-- Reads items, each behind a token of kind `lead`, to go behind those that are `done`, the latest
of them at the front. -/
def manyAfter (lead : TokenKind) (item : Parser α) (hi : item.Keeps) (done : List α) :
    Parser (List α) := do
  let items ← extend (another? lead item) (fun _ _ h _ ↦ by
    rw [another?] at h
    split at h
    · cases h
      exact hi.map _
    · cases h) done
  return items.reverse

theorem keeps_manyAfter (lead : TokenKind) (item : Parser α) (hi : item.Keeps) (done : List α) :
    (manyAfter lead item hi done).Keeps :=
  Keeps.bind (keeps_extend _ _ _) fun _ ↦ keeps_pure _

/-- Reads items with commas between them, none of them if the kind at the front is `close`. -/
def listUntil (close : TokenKind) (item : Parser α) (hi : item.Keeps) : Parser (List α) := do
  if (← kind) = close then return []
  let first ← item
  manyAfter (.symbol .comma) item hi [first]

theorem keeps_listUntil (close : TokenKind) (item : Parser α) (hi : item.Keeps) :
    (listUntil close item hi).Keeps := by
  refine keeps_kind.bind fun k ↦ ?_
  split
  · exact keeps_pure _
  · exact hi.bind fun _ ↦ keeps_manyAfter _ _ hi _

end Parser

end SvLang
