import SvLang.Proofs.Grammar.Congruence.Local
import SvLang.Proofs.Grammar.Counting.Tracking

/-!
# What the limit of nesting does

A limit refuses programs, and does nothing else.  What is accepted within a limit is read in the
same way within a higher one, and what is refused for another reason is refused for that reason
(`parseWithin_of_le`).  If the nesting is kept in a counter, the counter is always back where it was
when a part of the grammar has been read or refused, and it is never above the limit
(`Counting.TracksAt`).  `parseWithin_limit` puts the two together.
-/

set_option autoImplicit false

namespace SvLang

open SvLang.Parser

/-! ## A higher limit -/

/-- The program is refused because it nests too deep. -/
def ParseError.IsTooDeep (e : ParseError) : Prop := ∃ limit, e.problem = .tooDeep limit

/-- Unless the first parser finds that these tokens nest too deep, the second one does the same with
them. -/
def UnlessTooDeep {α : Type} (p q : Parser α) (ts : List Token) : Prop :=
  (∃ e, p ts = .error e ∧ e.IsTooDeep) ∨ q ts = p ts

theorem UnlessTooDeep.bind {α β : Type} {p q : Parser α} {f g : α → Parser β} {ts : List Token}
    (h : UnlessTooDeep p q ts)
    (hf : ∀ a rest, p ts = .ok (a, rest) → UnlessTooDeep (f a) (g a) rest) :
    UnlessTooDeep (p >>= f) (q >>= g) ts := by
  rw [UnlessTooDeep, bind_apply, bind_apply]
  obtain ⟨e, hp, he⟩ | hq := h
  · exact .inl ⟨e, by rw [hp], he⟩
  · rw [hq]
    cases hp : p ts with
    | error e => exact .inr rfl
    | ok r => exact hf r.1 r.2 hp

theorem localCongruence_unlessTooDeep : LocalCongruence fun _ ↦ UnlessTooDeep where
  pure _ _ := .inr rfl
  bind := .bind
  kind _ := .inr rfl
  refuse _ _ _ _ _ := .inr rfl
  ofFront {_ _ _ _ _ ts} hp hq h := by rwa [UnlessTooDeep, hp ts rfl, hq ts rfl]
  cons {_ _ _ _ _ _ ts} _ hp hq h := by rwa [UnlessTooDeep, hp ts, hq ts]
  forIncrement? {R S} h ts := by
    rw [UnlessTooDeep, Rules.forIncrement?, Rules.forIncrement?]
    split
    · exact .inr rfl
    · cases Rules.steppedName? ts with
      | some r => exact .inr rfl
      | none => exact (h ts).bind fun _ _ _ ↦ .inr rfl

/-- With more levels left, and whatever the limit is, the rules do the same unless they run out of
levels. -/
theorem Rules.unlessTooDeep_rules (limit limit' : Nat) {room room' : Nat} (h : room ≤ room') :
    Related (fun _ p q ↦ ∀ ts, UnlessTooDeep p q ts) (rules limit room) (rules limit' room') := by
  induction room generalizing room' with
  | zero =>
    have hfail : ∀ (α : Type) (q : Parser α) ts, UnlessTooDeep (fail (.tooDeep limit)) q ts :=
      fun α q ts ↦ .inl ⟨_, rfl, limit, rfl⟩
    exact ⟨hfail _ _, hfail _ _, hfail _ _, hfail _ _⟩
  | succ room ih =>
    obtain ⟨room', rfl⟩ := Nat.exists_eq_add_of_le' h
    exact (ih (Nat.le_add_left room room')).outer localCongruence_unlessTooDeep.congruence

theorem parseWithin_of_le {limit limit' : Nat} (h : limit ≤ limit') {ts : List Token}
    (hdeep : ∀ e, parseWithin limit ts = .error e → ¬ e.IsTooDeep) :
    parseWithin limit' ts = parseWithin limit ts := by
  have hbody := (Rules.unlessTooDeep_rules limit limit' h).body
    localCongruence_unlessTooDeep.congruence ts
  obtain ⟨e, he, hlimit⟩ | hsame := hbody
  · exact absurd hlimit (hdeep e (parseWithin_eq_error.2 he))
  · cases hp : parseWithin limit ts with
    | error e => exact parseWithin_eq_error.2 (hsame.trans (parseWithin_eq_error.1 hp))
    | ok p =>
      obtain ⟨rest, hr⟩ := parseWithin_eq_ok.1 hp
      exact parseWithin_eq_ok.2 ⟨rest, hsame.trans hr⟩

/-! ## The counter -/

/-- A program is read with the counter at zero in the end, whether or not it is accepted. -/
theorem countingParse_eq (limit : Nat) (ts : List Token) :
    ∃ peak ≤ limit, countingParse limit ts = some ⟨parseWithin limit ts, 0, peak⟩ := by
  obtain ⟨peak, hpeak, h⟩ := (Procedures.track_procedures (Nat.zero_le limit)
    (Nat.lt_succ_self limit)).counterpart (Nat.zero_le limit) .body ts
  refine ⟨peak, hpeak, ?_⟩
  rw [countingParse, h]
  rfl

/-- **What the limit does.**  If a program is not found to nest too deep within a limit, it is read
the same way, or refused with the same error, within every higher limit.  Reading it with a counter
gives the same, ends with the counter at zero, and never brings it above the limit.  So it is with
every procedure of the grammar, and with whatever else is made of these by the same operations:
called with the counter at `d`, it does what the rule does that has `limit - d` levels left, and
whatever comes of it, the counter is left at `d` and has not been above the limit. -/
theorem parseWithin_limit {limit limit' : Nat} (h : limit ≤ limit') (ts : List Token) :
    ((∀ e, parseWithin limit ts = .error e → ¬ e.IsTooDeep) →
      parseWithin limit' ts = parseWithin limit ts) ∧
    (∃ peak ≤ limit, countingParse limit ts = some ⟨parseWithin limit ts, 0, peak⟩) ∧
    ∀ (d : Nat) (α : Type) (c : Counting α) (p : Parser α), d ≤ limit →
      Procedures.Counterpart (procedures limit (limit + 1)) (rules limit (limit - d)) c p →
      ∀ us, ∃ peak ≤ limit, c d us = some ⟨p us, d, peak⟩ := by
  refine ⟨parseWithin_of_le h, countingParse_eq limit ts, fun d α c p hd hcp ↦ ?_⟩
  have hfuel : limit - d < limit + 1 := by omega
  exact (Procedures.track_procedures hd hfuel).counterpart hd hcp

/-- The text `;` nests one level deep, and two levels allow it as well.  A block that is read with
the counter at the limit is refused because of the statement in it, and the counter is left
there. -/
theorem parseWithin_limit_semicolon :
    parseWithin 2 [⟨.symbol .semicolon, ";", ⟨0, 1⟩⟩] = .ok ⟨[.empty]⟩ ∧
    (∃ peak ≤ 1, countingParse 1 [⟨.symbol .semicolon, ";", ⟨0, 1⟩⟩] =
      some ⟨.ok ⟨[.empty]⟩, 0, peak⟩) ∧
    ∃ peak ≤ 1, (procedures 1 2).block 1
        [⟨.symbol .openBrace, "\x7b", ⟨0, 1⟩⟩, ⟨.symbol .semicolon, ";", ⟨1, 2⟩⟩] =
      some ⟨.error ⟨1, .tooDeep 1⟩, 1, peak⟩ := by
  have hone : parseWithin 1 [⟨.symbol .semicolon, ";", ⟨0, 1⟩⟩] = .ok ⟨[.empty]⟩ := by cbv
  have hblock : (rules 1 0).block [⟨.symbol .openBrace, "\x7b", ⟨0, 1⟩⟩,
      ⟨.symbol .semicolon, ";", ⟨1, 2⟩⟩] = .error ⟨1, .tooDeep 1⟩ := by cbv
  obtain ⟨hsame, hcount, hall⟩ := parseWithin_limit (show 1 ≤ 2 by decide)
    [⟨.symbol .semicolon, ";", ⟨0, 1⟩⟩]
  rw [hone] at hsame hcount
  refine ⟨hsame fun e he ↦ (by cases he), hcount, ?_⟩
  rw [← hblock]
  exact hall 1 _ _ _ (Nat.le_refl 1) .block _

end SvLang
