import SvLang.Proofs.Grammar.Rounds

/-!
# Parsing with a counter

The grammar has no counter of its own: how many levels of nesting are left is the index of
`rules limit`.  Here the same grammar is read by procedures that share one counter.  `nested` adds
one to it before it runs a procedure and takes one away afterwards, and refuses to run anything at
the limit.  Nothing makes a procedure put the counter back, so that it does is a fact to be proved,
for runs that succeed and for runs that fail.

## What is here

* `Counting`: procedures with a counter.  A run may fail to come to an end, and a run that ends
  leaves the counter behind also if the program is refused.  `peak` keeps the highest value that the
  counter had; nothing reads it.
* The operations of the grammar on procedures: `branch`, `manyUntil`, `extend` and those that are
  made of them, each after the operation of that name on parsers.
* `Tracks limit d c p`: run with the counter at `d`, the procedure `c` comes to an end, does what
  the parser `p` does, leaves the counter at `d`, and never brings it above the limit.  Every
  operation hands this on, and `nested` carries it from one level to the next.
-/

set_option autoImplicit false

namespace SvLang

/-! ## Runs -/

/-- A run that came to an end: the value or the error, the counter, and the highest value that the
counter had on the way. -/
structure Counted (α : Type) where
  outcome : Except ParseError α
  depth : Nat
  peak : Nat

namespace Counted

variable {α β : Type}

/-- The run as the end of a longer one, on which the counter has been at `k`. -/
def raise (k : Nat) (r : Counted α) : Counted α := { r with peak := max k r.peak }

/-- The run with something else made of its value. -/
def map (f : α → β) (r : Counted α) : Counted β := { r with outcome := r.outcome.map f }

end Counted

/-- A procedure that reads values of type `α` off the tokens, starting with the counter at some
value.  Without a result, its run does not come to an end. -/
def Counting (α : Type) : Type := Nat → List Token → Option (Counted (α × List Token))

/-- A parser as a procedure that leaves the counter alone. -/
def Parser.counting {α : Type} (p : Parser α) : Counting α := fun d ts ↦ some ⟨p ts, d, d⟩

namespace Counting

open SvLang.Parser (front kind)

variable {α β : Type}

instance : Monad Counting where
  pure a := (pure a : Parser _).counting
  bind c f := fun d ts ↦
    match c d ts with
    | none => none
    | some ⟨.error e, depth, peak⟩ => some ⟨.error e, depth, peak⟩
    | some ⟨.ok (a, rest), depth, peak⟩ => (f a depth rest).map (Counted.raise peak)

instance : MonadLift Parser Counting := ⟨Parser.counting⟩

/-! ## The operations of the grammar -/

/-- Runs the procedure one level of nesting deeper. -/
def nested (limit : Nat) (c : Counting α) : Counting α := fun d ts ↦
  if limit ≤ d then some ⟨Parser.fail (.tooDeep limit) ts, d, d⟩
  else (c (d + 1) ts).map fun r ↦ { r with depth := r.depth - 1, peak := max (d + 1) r.peak }

/-- If `rule?` has a procedure for the token at the front, takes the token and goes on with that;
else leaves it and goes on with `otherwise`. -/
def branch (rule? : Token → Option (Counting α)) (otherwise : Counting α) : Counting α
  | d, [] => otherwise d []
  | d, t :: ts =>
    match rule? t with
    | some rule => rule d ts
    | none => otherwise d (t :: ts)

/-- If the token at the front is of kind `k`, takes it and goes on with `rule`; else leaves it and
goes on with `otherwise`. -/
def onKind (k : TokenKind) (rule otherwise : Counting α) : Counting α :=
  branch (fun t ↦ if t.kind = k then some rule else none) otherwise

/-- Reads items until the kind at the front is one to stop at.  With an item that takes nothing this
does not come to an end. -/
def manyUntilFrom (stop : TokenKind → Bool) (item : Counting α) (done : List α) (d : Nat)
    (ts : List Token) : Option (Counted (List α × List Token)) :=
  if stop (front ts).kind then some ⟨.ok (done.reverse, ts), d, d⟩
  else
    bind item (fun a depth rest ↦
      if rest.length < ts.length then manyUntilFrom stop item (a :: done) depth rest else none) d ts
termination_by ts.length

/-- Reads items until the kind at the front is one to stop at. -/
def manyUntil (stop : TokenKind → Bool) (item : Counting α) : Counting (List α) :=
  manyUntilFrom stop item []

/-- As long as `more?` has a procedure for the token at the front, takes the token and extends what
has been read by that. -/
def extend (more? : Token → Option (α → Counting α)) (a : α) (d : Nat) (ts : List Token) :
    Option (Counted (α × List Token)) :=
  match ts with
  | [] => some ⟨.ok (a, []), d, d⟩
  | t :: ts =>
    match more? t with
    | none => some ⟨.ok (a, t :: ts), d, d⟩
    | some rule =>
      bind (rule a) (fun b depth rest ↦
        if rest.length ≤ ts.length then extend more? b depth rest else none) d ts
termination_by ts.length

/-- The procedure that reads one more item behind a token of kind `lead`. -/
def another? (lead : TokenKind) (item : Counting α) (t : Token) :
    Option (List α → Counting (List α)) :=
  if t.kind = lead then some fun done ↦ (· :: done) <$> item else none

/-- Reads items, each behind a token of kind `lead`, to go behind those that are `done`, the latest
of them at the front. -/
def manyAfter (lead : TokenKind) (item : Counting α) (done : List α) : Counting (List α) := do
  let items ← extend (another? lead item) done
  return items.reverse

/-- Reads items with commas between them, none of them if the kind at the front is `close`. -/
def listUntil (close : TokenKind) (item : Counting α) : Counting (List α) := do
  if (← kind) = close then return []
  let first ← item
  manyAfter (.symbol .comma) item [first]

/-! ## Doing what a parser does -/

/-- On these tokens and with the counter at `d`, the procedure comes to an end with the outcome of
the parser, leaves the counter at `d` whatever the outcome is, and never brings it above the
limit. -/
def TracksAt (limit d : Nat) (c : Counting α) (p : Parser α) (ts : List Token) : Prop :=
  ∃ peak ≤ limit, c d ts = some ⟨p ts, d, peak⟩

/-- The same on all tokens. -/
def Tracks (limit d : Nat) (c : Counting α) (p : Parser α) : Prop := ∀ ts, TracksAt limit d c p ts

section Tracks

variable {limit d : Nat}

theorem TracksAt.of_eq {c c' : Counting α} {p : Parser α} {ts : List Token}
    (hc : c d ts = c' d ts) (h : TracksAt limit d c' p ts) : TracksAt limit d c p ts := by
  rwa [TracksAt, hc]

/-- One part after another: the second one starts with the counter where the first one did. -/
theorem TracksAt.bind {c : Counting α} {p : Parser α} {f : α → Counting β} {g : α → Parser β}
    {ts : List Token} (h : TracksAt limit d c p ts)
    (hf : ∀ a rest, p ts = .ok (a, rest) → TracksAt limit d (f a) (g a) rest) :
    TracksAt limit d (c >>= f) (p >>= g) ts := by
  obtain ⟨peak, hpeak, hc⟩ := h
  cases hp : p ts with
  | error e =>
    refine ⟨peak, hpeak, ?_⟩
    simp only [Bind.bind, hc, hp]
  | ok r =>
    obtain ⟨a, rest⟩ := r
    obtain ⟨peak', hpeak', hf'⟩ := hf a rest hp
    refine ⟨max peak peak', Nat.max_le.2 ⟨hpeak, hpeak'⟩, ?_⟩
    simp only [Bind.bind, hc, hp, hf', Option.map_some, Counted.raise]

theorem Tracks.bind {c : Counting α} {p : Parser α} {f : α → Counting β} {g : α → Parser β}
    (h : Tracks limit d c p) (hf : ∀ a, Tracks limit d (f a) (g a)) :
    Tracks limit d (c >>= f) (p >>= g) := fun ts ↦ (h ts).bind fun a rest _ ↦ hf a rest

/-- At the limit nothing is run. -/
theorem tracks_nested_limit (c : Counting α) :
    Tracks limit limit (nested limit c) (Parser.fail (.tooDeep limit)) := fun _ ↦
  ⟨limit, Nat.le_refl limit, if_pos (Nat.le_refl limit)⟩

/-- Below the limit the counter is put back to where it was. -/
theorem Tracks.nested {c : Counting α} {p : Parser α} (h : Tracks limit (d + 1) c p)
    (hlt : d < limit) : Tracks limit d (nested limit c) p := by
  intro ts
  obtain ⟨peak, hpeak, hc⟩ := h ts
  refine ⟨max (d + 1) peak, Nat.max_le.2 ⟨hlt, hpeak⟩, ?_⟩
  rw [Counting.nested, if_neg (Nat.not_le.2 hlt), hc]
  rfl

/-! ### Choices -/

theorem Tracks.branch {rule? : Token → Option (Counting α)} {rule'? : Token → Option (Parser α)}
    {otherwise : Counting α} {otherwise' : Parser α}
    (hr : ∀ t, Option.Rel (Tracks limit d) (rule? t) (rule'? t))
    (ho : Tracks limit d otherwise otherwise') :
    Tracks limit d (branch rule? otherwise) (Parser.branch rule'? otherwise') := by
  intro ts
  cases ts with
  | nil => exact ho []
  | cons t ts =>
    rw [TracksAt, Counting.branch, Parser.branch]
    have ht := hr t
    generalize rule? t = rule, rule'? t = rule' at ht
    cases ht with
    | some h => exact h ts
    | none => exact ho (t :: ts)

/-! ### What leaves the counter alone -/

variable (hd : d ≤ limit)

include hd

theorem tracks_counting (p : Parser α) : Tracks limit d p.counting p := fun _ ↦ ⟨d, hd, rfl⟩

/-! ### Loops -/

theorem Tracks.manyUntil {stop : TokenKind → Bool} {item : Counting α} {item' : Parser α}
    {hi : item'.Shrinks} (h : Tracks limit d item item') :
    Tracks limit d (manyUntil stop item) (Parser.manyUntil stop item' hi) := by
  have loop : ∀ n done ts, ts.length = n →
      TracksAt limit d (manyUntilFrom stop item done) (Parser.manyUntilFrom stop item' hi done)
        ts := by
    intro n
    induction n using Nat.strongRecOn with
    | ind n ih =>
      rintro done ts rfl
      unfold TracksAt
      rw [manyUntilFrom, Parser.manyUntilFrom_eq]
      by_cases hstop : stop (front ts).kind
      · rw [if_pos hstop, if_pos hstop]
        exact tracks_counting hd (pure done.reverse) ts
      · rw [if_neg hstop, if_neg hstop]
        refine (h ts).bind fun a rest hp ↦ ?_
        have hlt : rest.length < ts.length := hi _ _ _ hp
        exact .of_eq (if_pos hlt) (ih rest.length hlt (a :: done) rest rfl)
  exact fun ts ↦ loop ts.length [] ts rfl

theorem Tracks.extend {more? : Token → Option (α → Counting α)}
    {more'? : Token → Option (α → Parser α)}
    {hm : ∀ t rule, more'? t = some rule → ∀ a, (rule a).Keeps}
    (h : ∀ t, Option.Rel (fun r r' ↦ ∀ a, Tracks limit d (r a) (r' a)) (more? t) (more'? t))
    (a : α) : Tracks limit d (extend more? a) (Parser.extend more'? hm a) := by
  have loop : ∀ n a ts, ts.length = n →
      TracksAt limit d (Counting.extend more? a) (Parser.extend more'? hm a) ts := by
    intro n
    induction n using Nat.strongRecOn with
    | ind n ih =>
      rintro a ts rfl
      unfold TracksAt
      rw [Parser.extend_eq_branch]
      cases ts with
      | nil =>
        rw [Counting.extend]
        exact tracks_counting hd (pure a) []
      | cons t ts =>
        rw [Counting.extend, Parser.branch]
        have ht := h t
        have hkeeps := hm t
        generalize more? t = rule, more'? t = rule' at ht hkeeps
        cases ht with
        | none => exact tracks_counting hd (pure a) (t :: ts)
        | @some rule rule' hrule =>
          refine (hrule a ts).bind fun b rest hp ↦ ?_
          have hle : rest.length ≤ ts.length := hkeeps rule' rfl a _ _ _ hp
          exact .of_eq (if_pos hle) (ih rest.length (Nat.lt_succ_of_le hle) b rest rfl)
  exact fun ts ↦ loop ts.length a ts rfl

end Tracks

end Counting

end SvLang
