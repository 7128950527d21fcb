import SvLang.Proofs.Grammar.Rounds
import SvLang.Proofs.Grammar.Tree

/-!
# What a parser does with what is written

`p.Leads u k q` says that the parser `p`, where it finds tokens that write `u` and behind them a
token of kind `k`, takes exactly those tokens and goes on as the parser `q`.  To accept is to lead
to `pure`.  A run through a rule of the grammar is a chain of such steps, one for each part of the
rule, and this file has the step of each combinator.

The kind behind is part of the statement because every loop and every choice of the grammar is
decided by a look at it.  `firstKind u k` is what such a look sees in front of `u`.
-/

set_option autoImplicit false

namespace SvLang

/-! ## Terminals and the kind at the front -/

theorem Token.kind_of_terminal {t : Token} {x : Terminal} (h : t.terminal = x) :
    t.kind = x.kind :=
  congrArg Terminal.kind h

/-- A text that means anything can be read off the terminal. -/
theorem Token.text_of_terminal {t : Token} {x : Terminal} (h : t.terminal = x)
    (hx : x.kind.hasText) : t.text = x.text := by
  subst h
  exact (if_pos hx).symm

theorem Token.isName_of_terminal {t : Token} {x : String} (h : t.terminal = .ofName x) :
    t.kind = .identifier ∧ t.text = x :=
  ⟨Token.kind_of_terminal h, Token.text_of_terminal h rfl⟩

/-- The kind at the front of what is written as `u`, if a token of kind `k` stands behind it. -/
def firstKind (u : List Terminal) (k : TokenKind) : TokenKind :=
  match u with
  | [] => k
  | x :: _ => x.kind

@[simp] theorem firstKind_nil (k : TokenKind) : firstKind [] k = k := rfl

@[simp] theorem firstKind_cons (x : Terminal) (u : List Terminal) (k : TokenKind) :
    firstKind (x :: u) k = x.kind := rfl

@[simp] theorem firstKind_append (u v : List Terminal) (k : TokenKind) :
    firstKind (u ++ v) k = firstKind u (firstKind v k) := by
  cases u <;> rfl

theorem Parser.kind_front_append {used rest : List Token} {u : List Terminal} {k : TokenKind}
    (hu : used.map Token.terminal = u) (hk : (front rest).kind = k) :
    (front (used ++ rest)).kind = firstKind u k := by
  subst hu
  cases used with
  | nil => exact hk
  | cons t used => rfl

namespace Parser

variable {α β : Type}

/-! ## Steps -/

/-- Where the parser `p` finds tokens that write `u`, and behind them a token of kind `k`, it takes
those tokens and goes on as the parser `q`. -/
def Leads (p : Parser α) (u : List Terminal) (k : TokenKind) (q : Parser α) : Prop :=
  ∀ used rest, used.map Token.terminal = u → (front rest).kind = k → p (used ++ rest) = q rest

namespace Leads

variable {p q r : Parser α} {u v : List Terminal} {k : TokenKind}

/-- A parser that sees a token of kind `k` at the front is at a place to take nothing. -/
theorem of_eq (h : ∀ ts, (front ts).kind = k → p ts = q ts) : p.Leads [] k q := by
  intro used rest hu hk
  rw [List.map_eq_nil_iff] at hu
  subst hu
  exact h rest hk

theorem refl (p : Parser α) (k : TokenKind) : p.Leads [] k p := of_eq fun _ _ ↦ rfl

/-- One run after another. -/
theorem trans (h₁ : p.Leads u (firstKind v k) q) (h₂ : q.Leads v k r) : p.Leads (u ++ v) k r := by
  intro used rest hu hk
  obtain ⟨first, second, rfl, hfirst, hsecond⟩ := List.map_eq_append_iff.1 hu
  rw [List.append_assoc, h₁ first _ hfirst (kind_front_append hsecond hk)]
  exact h₂ second rest hsecond hk

/-- A run of one token before another. -/
theorem cons {x : Terminal} (h₁ : p.Leads [x] (firstKind v k) q) (h₂ : q.Leads v k r) :
    p.Leads (x :: v) k r :=
  h₁.trans h₂

/-- A look at the front before a run. -/
theorem look (h₁ : p.Leads [] (firstKind v k) q) (h₂ : q.Leads v k r) : p.Leads v k r :=
  h₁.trans h₂

/-- A run before a look at what is behind. -/
theorem stop (h₁ : p.Leads u k q) (h₂ : q.Leads [] k r) : p.Leads u k r := by
  simpa using h₁.trans (v := []) h₂

/-- A run through the first part of a sequence. -/
theorem bind {p p' : Parser α} (h : p.Leads u k p') (f : α → Parser β) :
    (p >>= f).Leads u k (p' >>= f) := by
  intro used rest hu hk
  rw [bind_apply, bind_apply, h used rest hu hk]

/-- A first part that is read to its end. -/
theorem bind_pure {p : Parser α} {a : α} (h : p.Leads u k (pure a)) (f : α → Parser β) :
    (p >>= f).Leads u k (f a) :=
  h.bind f

theorem map_pure {p : Parser α} {a : α} (h : p.Leads u k (pure a)) (f : α → β) :
    (f <$> p).Leads u k (pure (f a)) := by
  rw [map_eq_pure_bind]
  exact h.bind_pure _

end Leads

/-! ## One token -/

/-- A parser that takes the tokens which are `x` and goes on as `q` with what is behind. -/
theorem leads_singleton {p q : Parser α} {x : Terminal} {k : TokenKind}
    (h : ∀ t ts, t.terminal = x → p (t :: ts) = q ts) : p.Leads [x] k q := by
  intro used rest hu _
  obtain ⟨t, rfl, ht⟩ := List.map_eq_singleton_iff.1 hu
  exact h t rest ht

theorem leads_kind (f : TokenKind → Parser α) (k : TokenKind) : (kind >>= f).Leads [] k (f k) :=
  .of_eq fun ts hk ↦ by rw [bind_apply, kind, hk]

/-- A token that has to stand there, whatever its text. -/
theorem leads_expect (place : Landmark) {x : Terminal} (hx : x.kind = place.kind) (q : Parser α)
    (k : TokenKind) : (expect place >>= fun _ ↦ q).Leads [x] k q := by
  refine leads_singleton fun t ts ht ↦ ?_
  rw [bind_apply, expect, if_pos ((Token.kind_of_terminal ht).trans hx)]

/-- A name that has to stand there, and its text. -/
theorem leads_expect_name (x : String) (f : String → Parser α) (k : TokenKind) :
    (expect .name >>= f).Leads [.ofName x] k (f x) := by
  refine leads_singleton fun t ts ht ↦ ?_
  obtain ⟨hkind, htext⟩ := Token.isName_of_terminal ht
  rw [bind_apply, expect, if_pos (show t.kind = Landmark.name.kind from hkind), htext]

/-! ## Choices -/

theorem leads_branch {rule? : Token → Option (Parser α)} {otherwise q : Parser α}
    {x : Terminal} (h : ∀ t, t.terminal = x → rule? t = some q) (k : TokenKind) :
    (branch rule? otherwise).Leads [x] k q :=
  leads_singleton fun t ts ht ↦ by rw [branch, h t ht]

theorem leads_branch_otherwise {rule? : Token → Option (Parser α)} {otherwise : Parser α}
    {k : TokenKind} (h : ∀ t, t.kind = k → rule? t = none) :
    (branch rule? otherwise).Leads [] k otherwise :=
  .of_eq fun _ hk ↦ branch_of_none (h _ hk)

theorem leads_onKind {l : TokenKind} {rule otherwise : Parser α} {x : Terminal} (hx : x.kind = l)
    (k : TokenKind) : (onKind l rule otherwise).Leads [x] k rule :=
  leads_branch (fun _ ht ↦ if_pos ((Token.kind_of_terminal ht).trans hx)) k

theorem leads_onKind_otherwise {l k : TokenKind} {rule otherwise : Parser α} (h : k ≠ l) :
    (onKind l rule otherwise).Leads [] k otherwise :=
  leads_branch_otherwise fun t ht ↦ if_neg (by rw [ht]; exact h)

/-! ## Loops -/

theorem leads_manyUntilFrom_stop {stop : TokenKind → Bool} {item : Parser α} {hi : item.Shrinks}
    {done : List α} {k : TokenKind} (hk : stop k) :
    Leads (manyUntilFrom stop item hi done) [] k (pure done.reverse) :=
  .of_eq fun ts hts ↦ by rw [manyUntilFrom, hts, if_pos hk, pure_apply]

theorem leads_manyUntilFrom {stop : TokenKind → Bool} {item : Parser α} {hi : item.Shrinks}
    {done : List α} {u : List Terminal} {k : TokenKind} {a : α} (hk : stop (firstKind u k) = false)
    (h : item.Leads u k (pure a)) :
    Leads (manyUntilFrom stop item hi done) u k (manyUntilFrom stop item hi (a :: done)) := by
  intro used rest hu hrest
  have hstop : ¬ stop (front (used ++ rest)).kind = true := by
    rw [kind_front_append hu hrest, hk]
    exact Bool.false_ne_true
  rw [manyUntilFrom_eq, if_neg hstop]
  exact h.bind_pure (fun a ↦ manyUntilFrom stop item hi (a :: done)) used rest hu hrest

section Extend

variable {more? : Token → Option (α → Parser α)}
  {hm : ∀ t rule, more? t = some rule → ∀ a, (rule a).Keeps} {a : α} {k : TokenKind}

theorem leads_extend_stop (h : ∀ t, t.kind = k → more? t = none) :
    Leads (extend more? hm a) [] k (pure a) := by
  rw [extend_eq_branch]
  exact leads_branch_otherwise fun t ht ↦ by rw [h t ht, Option.map_none]

/-- One more round of the loop. -/
theorem leads_extend {x : Terminal} {rule : α → Parser α}
    (h : ∀ t, t.terminal = x → more? t = some rule) :
    Leads (extend more? hm a) [x] k (rule a >>= fun b ↦ extend more? hm b) := by
  rw [extend_eq_branch]
  exact leads_branch (fun t ht ↦ by rw [h t ht, Option.map_some]) k

end Extend

/-! ## Lists -/

section Lists

variable {item : Parser α} {hi : item.Keeps} {done : List α} {u : List Terminal} {k : TokenKind}
  {a : α}

theorem leads_manyAfter_stop {lead : TokenKind} (h : k ≠ lead) :
    (manyAfter lead item hi done).Leads [] k (pure done.reverse) :=
  (leads_extend_stop fun t ht ↦ if_neg (by rw [ht]; exact h)).bind_pure _

/-- One more item, behind the token that leads it in. -/
theorem leads_manyAfter {lead : TokenKind} {x : Terminal} (hx : x.kind = lead)
    (h : item.Leads u k (pure a)) :
    (manyAfter lead item hi done).Leads (x :: u) k (manyAfter lead item hi (a :: done)) := by
  have hlead : ∀ t : Token, t.terminal = x →
      another? lead item t = some fun done ↦ (· :: done) <$> item :=
    fun _ ht ↦ if_pos ((Token.kind_of_terminal ht).trans hx)
  exact ((leads_extend hlead).cons ((h.map_pure (· :: done)).bind_pure _)).bind _

theorem leads_listUntil_none : (listUntil k item hi).Leads [] k (pure []) := by
  refine (leads_kind _ k).stop ?_
  rw [if_pos rfl]
  exact .refl _ k

/-- The first item of a list.  The others follow it, each behind a comma. -/
theorem leads_listUntil {close : TokenKind} (hu : firstKind u k ≠ close)
    (h : item.Leads u k (pure a)) :
    (listUntil close item hi).Leads u k (manyAfter (.symbol .comma) item hi [a]) := by
  refine (leads_kind _ _).look ?_
  rw [if_neg hu]
  exact h.bind_pure _

end Lists

end Parser

end SvLang
