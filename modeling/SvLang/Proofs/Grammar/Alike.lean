import Mathlib.Data.List.Forall2
import SvLang.Proofs.Grammar.Congruence
import SvLang.Proofs.Grammar.Rounds

/-!
# Tokens that look alike

The grammar asks a token for its kind, and for its text if that means anything.  Lists whose tokens
look alike to it are read alike: the same is read from both, and what is left of them looks alike;
or both are refused, at tokens that stand at the same place in the list, and for the same reason.

An error copies two more things from the token at which a program is refused: where it was written,
and, if nothing starts with it, its text.  So errors are compared by `ParseError.seen view`, which
drops the place and keeps of the text what `view` shows; and tokens look alike only if `view` shows
the same of their texts.  With a `view` that shows nothing, texts without a meaning are arbitrary;
with one that shows everything, the errors differ in their places alone.

## What is here

* `Token.Alike` for tokens, `SameOutcome` for what becomes of two lists, and `Parser.ReadsAlike` for
  two parsers.
* `congruence_readsAlike`: every operation of the grammar hands this on from its parts, so it holds
  of all rules (`Rules.readsAlike_rules`).
* `parseWithin_alike` for programs, and two ways for lists to look alike: `alike_of_terminals` if
  nothing is to be seen of the texts, and `alike_of_contents` if all of them is.
-/

set_option autoImplicit false

namespace SvLang

open SvLang.Parser

/-! ## What is compared -/

/-- The grammar sees the same of both tokens, and `view` shows the same of their texts. -/
def Token.Alike (view : String → String) (t u : Token) : Prop :=
  t.terminal = u.terminal ∧ view t.text = view u.text

/-- The problem with what `view` shows in the place of a text that was copied from a token. -/
def ParseProblem.mapText (view : String → String) : ParseProblem → ParseProblem
  | .unexpected found text => .unexpected found (view text)
  | problem => problem

/-- The error without its place, and with what `view` shows of the text that it holds. -/
def ParseError.seen (view : String → String) (e : ParseError) : ParseError :=
  ⟨0, e.problem.mapText view⟩

/-- If all of a text is shown, the place is the only thing that is dropped. -/
theorem ParseError.seen_id (e : ParseError) : e.seen id = { e with offset := 0 } := by
  obtain ⟨offset, problem⟩ := e
  cases problem <;> rfl

/-- The same has been read, and the tokens that are left look alike; or the errors do. -/
inductive SameOutcome {α : Type} (view : String → String) :
    Except ParseError (α × List Token) → Except ParseError (α × List Token) → Prop where
  | ok (a : α) {rest rest' : List Token} (h : List.Forall₂ (Token.Alike view) rest rest') :
      SameOutcome view (.ok (a, rest)) (.ok (a, rest'))
  | error {e e' : ParseError} (h : e.seen view = e'.seen view) :
      SameOutcome view (.error e) (.error e')

/-- The second parser does the same with a list as the first one does with a list that looks like
it. -/
def Parser.ReadsAlike (view : String → String) {α : Type} (p q : Parser α) : Prop :=
  ∀ ts us, List.Forall₂ (Token.Alike view) ts us → SameOutcome view (p ts) (q us)

section

variable {view : String → String} {α β : Type} {ts us : List Token}

/-! ## The token at the front -/

/-- Lists that look alike do so at the front, also behind their ends. -/
theorem alike_front (h : List.Forall₂ (Token.Alike view) ts us) :
    (front ts).Alike view (front us) := by
  cases h with
  | nil => exact ⟨rfl, rfl⟩
  | cons h _ => exact h

theorem kind_front_eq (h : List.Forall₂ (Token.Alike view) ts us) :
    (front ts).kind = (front us).kind :=
  Token.kind_eq_of_terminal (alike_front h).1

/-! ## Parsers of one token -/

theorem readsAlike_pure (a : α) : (pure a : Parser α).ReadsAlike view (pure a) :=
  fun _ _ h ↦ .ok a h

theorem readsAlike_kind : kind.ReadsAlike view kind := by
  intro ts us h
  rw [kind, kind, kind_front_eq h]
  exact .ok _ h

/-- A parser that refuses every token, for a reason that is the same for tokens that look alike. -/
theorem readsAlike_of_refuses {p : Parser α} (problem : Token → ParseProblem)
    (hp : ∀ ts, p ts = fail (problem (front ts)) ts)
    (h : ∀ t u : Token, t.Alike view u → (problem t).mapText view = (problem u).mapText view) :
    p.ReadsAlike view p := by
  intro ts us hts
  rw [hp, hp]
  refine .error ?_
  rw [ParseError.seen, ParseError.seen, h _ _ (alike_front hts)]

/-! ## Sequences and choices -/

theorem SameOutcome.bind {p q : Parser α} {f g : α → Parser β} (h : SameOutcome view (p ts) (q us))
    (hf : ∀ a rest rest', p ts = .ok (a, rest) → List.Forall₂ (Token.Alike view) rest rest' →
      SameOutcome view (f a rest) (g a rest')) :
    SameOutcome view ((p >>= f) ts) ((q >>= g) us) := by
  rw [bind_apply, bind_apply]
  generalize hp : p ts = r, q us = r' at h
  cases h with
  | ok a hrest => exact hf a _ _ hp hrest
  | error he => exact .error he

/-- Of lists that look alike, the front token of both is taken or of none. -/
theorem sameOutcome_branch {rule? rule'? : Token → Option (Parser α)}
    {otherwise otherwise' : Parser α} (hterminal : ByTerminal rule?)
    (hts : List.Forall₂ (Token.Alike view) ts us)
    (h : ∀ t, Option.Rel (fun rule rule' ↦ ∀ rest rest', rest.length < ts.length →
      List.Forall₂ (Token.Alike view) rest rest' → SameOutcome view (rule rest) (rule' rest'))
      (rule? t) (rule'? t))
    (ho : SameOutcome view (otherwise ts) (otherwise' us)) :
    SameOutcome view (branch rule? otherwise ts) (branch rule'? otherwise' us) := by
  cases hts with
  | nil => exact ho
  | @cons t u ts us htu hrest =>
    have hrule := h u
    rw [branch, branch, hterminal t u htu.1]
    generalize rule? u = rule, rule'? u = rule' at hrule
    cases hrule with
    | none => exact ho
    | some hrule => exact hrule _ _ (Nat.lt_succ_self _) hrest

/-- A token that has to stand at a place stands there in both lists or in none, and so does its text
if that means anything. -/
theorem sameOutcome_expect (place : Landmark) {f g : String → Parser α}
    (hfg : ∀ t u : Token, t.Alike view u → t.kind = place.kind →
      (f t.text).ReadsAlike view (g u.text)) (hts : List.Forall₂ (Token.Alike view) ts us) :
    SameOutcome view ((expect place >>= f) ts) ((expect place >>= g) us) := by
  rw [bind_apply, bind_apply]
  cases hts with
  | nil => exact .error rfl
  | @cons t u ts us htu hrest =>
    have hkind := Token.kind_eq_of_terminal htu.1
    rw [expect, expect, ← hkind]
    by_cases ht : t.kind = place.kind
    · rw [if_pos ht, if_pos ht]
      exact hfg t u htu ht _ _ hrest
    · rw [if_neg ht, if_neg ht]
      exact .error rfl

/-! ## Loops -/

theorem readsAlike_manyUntil {stop : TokenKind → Bool} {item item' : Parser α}
    {hi : item.Shrinks} {hi' : item'.Shrinks} (h : item.ReadsAlike view item') :
    (manyUntil stop item hi).ReadsAlike view (manyUntil stop item' hi') := by
  have loop : ∀ n done ts us, ts.length = n → List.Forall₂ (Token.Alike view) ts us →
      SameOutcome view (manyUntilFrom stop item hi done ts)
        (manyUntilFrom stop item' hi' done us) := by
    intro n
    induction n using Nat.strongRecOn with
    | ind n ih =>
      rintro done ts us rfl hts
      rw [manyUntilFrom_eq, manyUntilFrom_eq, ← kind_front_eq hts]
      by_cases hstop : stop (front ts).kind
      · rw [if_pos hstop, if_pos hstop]
        exact .ok _ hts
      · rw [if_neg hstop, if_neg hstop]
        exact (h ts us hts).bind fun a rest rest' hp hrest ↦
          ih _ (hi _ _ _ hp) _ rest rest' rfl hrest
  exact fun ts us hts ↦ loop ts.length [] ts us rfl hts

theorem readsAlike_extend {more? more'? : Token → Option (α → Parser α)}
    {hm : ∀ t rule, more? t = some rule → ∀ a, (rule a).Keeps}
    {hm' : ∀ t rule, more'? t = some rule → ∀ a, (rule a).Keeps} (hterminal : ByTerminal more?)
    (h : ∀ t, Option.Rel (fun r r' ↦ ∀ a, (r a).ReadsAlike view (r' a)) (more? t) (more'? t))
    (a : α) : ReadsAlike view (extend more? hm a) (extend more'? hm' a) := by
  have loop : ∀ n a ts us, ts.length = n → List.Forall₂ (Token.Alike view) ts us →
      SameOutcome view (extend more? hm a ts) (extend more'? hm' a us) := by
    intro n
    induction n using Nat.strongRecOn with
    | ind n ih =>
      rintro a ts us rfl hts
      rw [extend_eq_branch, extend_eq_branch]
      refine sameOutcome_branch (fun t u htu ↦ by rw [hterminal t u htu]) hts (fun t ↦ ?_)
        (.ok a hts)
      have hrule := h t
      have hkeeps := hm t
      generalize more? t = rule, more'? t = rule' at hrule hkeeps
      cases hrule with
      | none => exact .none
      | @some rule rule' hrule =>
        refine .some fun rest rest' hlt hrest ↦ (hrule a rest rest' hrest).bind ?_
        intro b left left' hp hleft
        have hle := hkeeps rule rfl a _ _ _ hp
        exact ih _ (Nat.lt_of_le_of_lt hle hlt) b left left' rfl hleft
  exact fun ts us hts ↦ loop ts.length a ts us rfl hts

/-! ## The look at a second token -/

/-- A name with a step operator behind it is at the front of both lists or of none. -/
theorem steppedName?_alike (h : List.Forall₂ (Token.Alike view) ts us) :
    Option.Rel (fun r r' ↦ r.1 = r'.1 ∧ List.Forall₂ (Token.Alike view) r.2 r'.2)
      (Rules.steppedName? ts) (Rules.steppedName? us) := by
  cases h with
  | nil => exact .none
  | @cons t t' ts us ht h =>
    cases h with
    | nil => exact .none
    | @cons u u' ts us hu h =>
      have hname := Token.kind_eq_of_terminal ht.1
      rw [Rules.steppedName?, Rules.steppedName?, ← hname, ← Token.kind_eq_of_terminal hu.1]
      by_cases hx : t.kind = .identifier
      · rw [if_pos hx, if_pos hx, Token.text_eq_of_terminal ht.1 (by rw [hx]; rfl)]
        cases Rules.stepOp? u.kind with
        | none => exact .none
        | some op => exact .some ⟨rfl, h⟩
      · rw [if_neg hx, if_neg hx]
        exact .none

theorem readsAlike_forIncrement? {R S : Rules} (h : R.expr.ReadsAlike view S.expr) :
    R.forIncrement?.ReadsAlike view S.forIncrement? := by
  intro ts us hts
  rw [Rules.forIncrement?, Rules.forIncrement?, ← kind_front_eq hts]
  by_cases hclose : (front ts).kind = .symbol .closeParen
  · rw [if_pos hclose, if_pos hclose]
    exact .ok none hts
  · rw [if_neg hclose, if_neg hclose]
    have hstep := steppedName?_alike hts
    generalize Rules.steppedName? ts = r, Rules.steppedName? us = r' at hstep
    cases hstep with
    | none =>
      simp only [map_eq_pure_bind]
      exact (h ts us hts).bind fun e _ _ _ hrest ↦ .ok (some e) hrest
    | @some r r' hr =>
      obtain ⟨e, rest⟩ := r
      obtain ⟨e', rest'⟩ := r'
      obtain ⟨rfl, hrest⟩ := hr
      exact .ok (some e) hrest

end

/-! ## The whole grammar -/

/-- Every operation of the grammar reads alike if its parts do. -/
theorem congruence_readsAlike (view : String → String) :
    Congruence fun _ ↦ ReadsAlike view where
  pure := readsAlike_pure
  bind h hf ts us hts := (h ts us hts).bind fun a _ _ _ hrest ↦ hf a _ _ hrest
  kind := readsAlike_kind
  expect place _ _ h _ _ hts := sameOutcome_expect place (fun _ _ _ _ ↦ h) hts
  expectName {_ f g} h ts us hts := by
    refine sameOutcome_expect .name (fun t u htu ht ↦ ?_) hts
    rw [Token.text_eq_of_terminal htu.1 (by rw [ht]; rfl)]
    exact h u.text
  unexpected := by
    refine readsAlike_of_refuses (fun t ↦ .unexpected t.kind t.text) (fun _ ↦ rfl) ?_
    intro t u htu
    simp only [ParseProblem.mapText, Token.kind_eq_of_terminal htu.1, htu.2]
  missingSemicolon name :=
    readsAlike_of_refuses (fun _ ↦ .missingSemicolon name) (fun _ ↦ rfl) fun _ _ _ ↦ rfl
  malformedParameter := by
    refine readsAlike_of_refuses (fun t ↦ .malformedParameter t.kind) (fun _ ↦ rfl) ?_
    exact fun t u htu ↦ by rw [Token.kind_eq_of_terminal htu.1]
  malformedCondition := by
    refine readsAlike_of_refuses (fun t ↦ .malformedForCondition t.kind) (fun _ ↦ rfl) ?_
    exact fun t u htu ↦ by rw [Token.kind_eq_of_terminal htu.1]
  branch {_ rule? rule'? _ _} _ hterminal h ho ts us hts := by
    refine sameOutcome_branch hterminal hts (fun t ↦ ?_) (ho ts us hts)
    have hrule := h t
    generalize rule? t = rule, rule'? t = rule' at hrule
    cases hrule with
    | none => exact .none
    | some hrule => exact .some fun rest rest' _ ↦ hrule rest rest'
  manyUntil _ h := readsAlike_manyUntil h
  extend _ hterminal h a := readsAlike_extend hterminal h a
  forIncrement? := readsAlike_forIncrement?

/-- Every rule of the grammar reads alike, whatever the limit and however much of it is left. -/
theorem Rules.readsAlike_rules (view : String → String) (limit room : Nat) :
    Related (fun _ ↦ ReadsAlike view) (rules limit room) (rules limit room) := by
  induction room with
  | zero =>
    have hfail : ∀ α : Type, (fail (.tooDeep limit) : Parser α).ReadsAlike view
        (fail (.tooDeep limit)) := fun α ↦
      readsAlike_of_refuses (fun _ ↦ .tooDeep limit) (fun _ ↦ rfl) fun _ _ _ ↦ rfl
    exact ⟨hfail _, hfail _, hfail _, hfail _⟩
  | succ room ih => exact ih.outer (congruence_readsAlike view)

/-! ## Whole programs -/

/-- Lists that look alike are accepted as the same program, or refused with errors that look
alike. -/
theorem parseWithin_alike {view : String → String} (limit : Nat) {ts us : List Token}
    (h : List.Forall₂ (Token.Alike view) ts us) :
    (parseWithin limit ts).mapError (ParseError.seen view) =
      (parseWithin limit us).mapError (ParseError.seen view) := by
  have hbody := (Rules.readsAlike_rules view limit limit).body (congruence_readsAlike view) ts us h
  change (((rules limit limit).body ts).map _).mapError _ =
    (((rules limit limit).body us).map _).mapError _
  generalize (rules limit limit).body ts = r, (rules limit limit).body us = r' at hbody
  cases hbody with
  | ok body _ => rfl
  | error he =>
    simp only [Except.map, Except.mapError]
    rw [he]

theorem parseWithin_eq_ok_of_alike {view : String → String} {limit : Nat} {ts us : List Token}
    (h : List.Forall₂ (Token.Alike view) ts us) {p : Program} (hp : parseWithin limit ts = .ok p) :
    parseWithin limit us = .ok p := by
  have heq := parseWithin_alike limit h
  rw [hp] at heq
  cases hus : parseWithin limit us with
  | error e => simp [hus, Except.mapError] at heq
  | ok q => simpa [hus, Except.mapError, eq_comm] using heq

/-! ## What looks alike -/

/-- Tokens that the grammar sees alike look alike, if nothing is to be seen of their texts. -/
theorem alike_of_terminals {ts us : List Token}
    (h : ts.map Token.terminal = us.map Token.terminal) :
    List.Forall₂ (Token.Alike fun _ ↦ "") ts us := by
  rw [← List.forall₂_eq_eq_eq, List.forall₂_map_left_iff, List.forall₂_map_right_iff] at h
  exact h.imp fun t u htu ↦ ⟨htu, rfl⟩

/-- Tokens of the same kinds with the same texts look alike, also if all of the texts is to be
seen. -/
theorem alike_of_contents {ts us : List Token}
    (h : (ts.map fun t ↦ (t.kind, t.text)) = us.map fun t ↦ (t.kind, t.text)) :
    List.Forall₂ (Token.Alike id) ts us := by
  rw [← List.forall₂_eq_eq_eq, List.forall₂_map_left_iff, List.forall₂_map_right_iff] at h
  refine h.imp fun t u htu ↦ ?_
  obtain ⟨hkind, htext⟩ := Prod.mk.inj htu
  exact ⟨by rw [Token.terminal, Token.terminal, hkind, htext], htext⟩

end SvLang
