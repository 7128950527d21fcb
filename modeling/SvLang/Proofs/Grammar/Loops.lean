import SvLang.Proofs.Grammar.Progress

/-!
# How often the loops go round

The loops of the grammar end because each round takes a token, and the definitions by which they are
written take that for granted.  Here the loops are written once more, without anything that makes
them end: a `Loop` says what one more round does, and `Loop.run n` runs it for at most `n` rounds
and gives up if that does not bring it to its end.  `Loop.Ends` says that it need not give up: with
as many rounds as there are tokens up to the first end of the input, the loop comes to its end, and
what it has done is what the rule of the grammar does.

Most loops look for a token before each round, and begin none at the end of the input.  A list with
commas begins its first item at any token but the one that closes it, at the end of the input as
well, where it is refused.  That is why a list may begin one round where no token is left, but even
there it completes none.
-/

set_option autoImplicit false

namespace SvLang

open SvLang.Parser

/-! ## Loops as such -/

/-- A loop that builds something up: by what has been built and the token at the front, what one
more round does, or `none` where the loop is at its end. -/
def Loop (σ : Type) : Type := σ → Token → Option (Parser σ)

namespace Loop

variable {σ α : Type}

/-- Runs the loop, for at most `n` rounds; `none` if it would begin another one.  The result comes
with the number of rounds that have been completed. -/
def run (loop : Loop σ) : Nat → σ → List Token → Option (Nat × Except ParseError (σ × List Token))
  | 0, s, ts =>
    match loop s (front ts) with
    | none => some (0, .ok (s, ts))
    | some _ => none
  | n + 1, s, ts =>
    match loop s (front ts) with
    | none => some (0, .ok (s, ts))
    | some round =>
      match round ts with
      | .error e => some (0, .error e)
      | .ok (s', rest) => (run loop n s' rest).map fun (completed, result) ↦ (completed + 1, result)

/-- Begun with `s`, the loop does what `p` does.  It begins at most as many rounds as there are
tokens up to the first end of the input, or `least` if there are fewer of them, and completes no
more than there are tokens. -/
def Ends (loop : Loop σ) (least : Nat) (s : σ) (p : Parser σ) : Prop :=
  ∀ ts n, max least (firstEnd ts) ≤ n →
    ∃ completed ≤ firstEnd ts, loop.run n s ts = some (completed, p ts)

/-- The parsers `L` do what the loop does, and each round moves forward.  `Going` holds behind a
round, and where it holds no round is begun at the end of the input. -/
structure Runs (loop : Loop σ) (L : σ → Parser σ) (Going : σ → Prop) : Prop where
  stop : ∀ s ts, loop s (front ts) = none → L s ts = .ok (s, ts)
  next : ∀ s ts round, loop s (front ts) = some round → L s ts = (round >>= L) ts
  atEnd : ∀ s t, Going s → t.kind = .eof → loop s t = none
  forward : ∀ s ts round s' rest, loop s (front ts) = some round → round ts = .ok (s', rest) →
    Going s' ∧ firstEnd rest < firstEnd ts

namespace Runs

variable {loop : Loop σ} {L : σ → Parser σ} {Going : σ → Prop} (h : loop.Runs L Going)

include h

/-- A loop that may begin a round ends if it does behind that round. -/
theorem run_succ {n : Nat} {s : σ} {ts : List Token}
    (hnext : ∀ s' rest, Going s' → firstEnd rest < firstEnd ts →
      ∃ completed ≤ firstEnd rest, loop.run n s' rest = some (completed, L s' rest)) :
    ∃ completed ≤ firstEnd ts, loop.run (n + 1) s ts = some (completed, L s ts) := by
  rw [run]
  split
  · rename_i hstop
    exact ⟨0, Nat.zero_le _, by rw [h.stop s ts hstop]⟩
  · rename_i round hround
    rw [h.next s ts round hround, bind_apply]
    cases hts : round ts with
    | error e => exact ⟨0, Nat.zero_le _, rfl⟩
    | ok r =>
      obtain ⟨s', rest⟩ := r
      obtain ⟨hgoing, hlt⟩ := h.forward s ts round s' rest hround hts
      obtain ⟨completed, hle, hrun⟩ := hnext s' rest hgoing hlt
      refine ⟨completed + 1, Nat.lt_of_le_of_lt hle hlt, ?_⟩
      dsimp only
      rw [hrun]
      rfl

theorem ends {s : σ} (hs : Going s) : loop.Ends 0 s (L s) := by
  intro ts n
  induction n generalizing s ts with
  | zero =>
    intro hn
    -- No token is left, and the loop sees that.
    have hend : firstEnd ts = 0 := by omega
    have hkind := kind_tokenAt_firstEnd ts
    rw [hend, ← front_eq_tokenAt] at hkind
    have hstop := h.atEnd s (front ts) hs hkind
    exact ⟨0, Nat.zero_le _, by rw [run, hstop, h.stop s ts hstop]⟩
  | succ n ih =>
    intro hn
    exact h.run_succ fun s' rest hs' hlt ↦ ih hs' rest (by omega)

theorem ends_one (s : σ) : loop.Ends 1 s (L s) := by
  intro ts n hn
  obtain ⟨n, rfl⟩ : ∃ m, n = m + 1 := ⟨n - 1, by omega⟩
  exact h.run_succ fun s' rest hs' hlt ↦ h.ends hs' rest n (by omega)

end Runs

/-! ## The forms of loops -/

/-- Takes the token at the front, whatever it is. -/
def bump : Parser Unit := fun ts ↦ .ok ((), ts.tail)

/-- Reads items while the kind at the front is none to stop at. -/
def whileNot (stop : TokenKind → Bool) (item : Parser α) : Loop (List α) := fun done t ↦
  if stop t.kind then none else some ((fun a ↦ done ++ [a]) <$> item)

/-- Takes a token, and extends what there is, while there is a rule for the token at the front. -/
def extending (more? : Token → Option (α → Parser α)) : Loop α := fun a t ↦
  (more? t).map fun rule ↦ do bump; rule a

/-- Reads items behind a token of kind `lead`, while there is one. -/
def whileAt (lead : TokenKind) (item : Parser α) : Loop (List α) := fun done t ↦
  if t.kind = lead then some (do bump; (fun a ↦ done ++ [a]) <$> item) else none

/-- Reads items with commas between them, none of them if the kind at the front is `close`. -/
def commaList (close : TokenKind) (item : Parser α) : Loop (List α)
  | [], t => if t.kind = close then none else some ((fun a ↦ [a]) <$> item)
  | done, t => whileAt (.symbol .comma) item done t

/-- Behind a token that is taken, a parser that stops in front of the first end leaves less than
there was. -/
theorem bump_forward {p : Parser α} {ts rest : List Token} {a : α} (h : ∀ us, p.TakesAt us)
    (hts : (front ts).kind ≠ .eof) (hp : (do bump; p) ts = .ok (a, rest)) :
    firstEnd rest < firstEnd ts := by
  obtain ⟨t, us, rfl, ht⟩ := exists_cons_of_front hts
  rw [ht] at hts
  rw [firstEnd_cons hts]
  exact Nat.lt_succ_of_le ((h us).firstEnd_le hp)

theorem whileNot_eq_none {stop : TokenKind → Bool} {item : Parser α} {done : List α} {t : Token} :
    whileNot stop item done t = none ↔ stop t.kind := by
  simp [whileNot]

theorem whileNot_eq_some {stop : TokenKind → Bool} {item : Parser α} {done : List α} {t : Token}
    {round : Parser (List α)} (h : whileNot stop item done t = some round) :
    ¬ stop t.kind ∧ round = (fun a ↦ done ++ [a]) <$> item := by
  rw [whileNot] at h
  split at h
  · cases h
  · exact ⟨by assumption, (Option.some.inj h).symm⟩

theorem runs_whileNot {stop : TokenKind → Bool} (hstop : stop .eof) {item : Parser α}
    (hi : item.Shrinks) (ha : item.Advances) :
    (whileNot stop item).Runs (fun done ↦ manyUntilFrom stop item hi done.reverse)
      fun _ ↦ True := by
  constructor
  case stop =>
    intro done ts h
    rw [manyUntilFrom_eq, if_pos (whileNot_eq_none.1 h), List.reverse_reverse]
  case next =>
    intro done ts round h
    obtain ⟨hts, rfl⟩ := whileNot_eq_some h
    rw [manyUntilFrom_eq, if_neg hts]
    refine Eq.trans ?_ (congrFun (bind_map_left _ item _) ts).symm
    simp only [List.reverse_append, List.reverse_singleton, List.singleton_append]
  case atEnd => exact fun done t _ hend ↦ whileNot_eq_none.2 (by rwa [hend])
  case forward =>
    intro done ts round done' rest h hround
    obtain ⟨-, rfl⟩ := whileNot_eq_some h
    exact ⟨trivial, (ha.map _).firstEnd_lt hround⟩

theorem runs_extending {more? : Token → Option (α → Parser α)}
    (heof : ∀ t, t.kind = .eof → more? t = none)
    (hm : ∀ t rule, more? t = some rule → ∀ a, (rule a).Keeps)
    (ht : ∀ t rule, more? t = some rule → ∀ a ts, (rule a).TakesAt ts) :
    (extending more?).Runs (extend more? hm) fun _ ↦ True := by
  have hround : ∀ {a ts round}, extending more? a (front ts) = some round →
      ∃ rule, more? (front ts) = some rule ∧ (do bump; rule a) = round := fun h ↦
    Option.map_eq_some_iff.1 h
  have hkind : ∀ {ts rule}, more? (front ts) = some rule → (front ts).kind ≠ .eof := by
    intro ts rule h hend
    rw [heof _ hend] at h
    cases h
  constructor
  case stop => exact fun a ts h ↦ extend_of_none (Option.map_eq_none_iff.1 h) a
  case next =>
    intro a ts round h
    obtain ⟨rule, hrule, rfl⟩ := hround h
    obtain ⟨t, us, rfl, hfront⟩ := exists_cons_of_front (hkind hrule)
    rw [hfront] at hrule
    exact extend_of_some hrule a us
  case atEnd =>
    intro a t _ hend
    rw [extending, heof t hend]
    rfl
  case forward =>
    intro a ts round b rest h hts
    obtain ⟨rule, hrule, rfl⟩ := hround h
    exact ⟨trivial, bump_forward (ht _ rule hrule a) (hkind hrule) hts⟩

theorem whileAt_eq_some {lead : TokenKind} {item : Parser α} {done : List α} {t : Token}
    {round : Parser (List α)} (h : whileAt lead item done t = some round) :
    t.kind = lead ∧ round = (do bump; (fun a ↦ done ++ [a]) <$> item) := by
  rw [whileAt] at h
  split at h
  · exact ⟨by assumption, (Option.some.inj h).symm⟩
  · cases h

theorem whileAt_eq_none {lead : TokenKind} {item : Parser α} {done : List α} {t : Token} :
    whileAt lead item done t = none ↔ t.kind ≠ lead := by
  simp [whileAt]

/-- A round of the loop reads what the rule reads behind the next token of kind `lead`. -/
theorem next_whileAt {lead : TokenKind} (hlead : lead ≠ .eof) {item : Parser α} (hi : item.Keeps)
    {done : List α} {ts : List Token} {round : Parser (List α)} {L : List α → Parser (List α)}
    (hL : ∀ a, L (done ++ [a]) = manyAfter lead item hi (a :: done.reverse))
    (h : whileAt lead item done (front ts) = some round) :
    manyAfter lead item hi done.reverse ts = (round >>= L) ts := by
  obtain ⟨hfront, rfl⟩ := whileAt_eq_some h
  obtain ⟨t, us, rfl, hts⟩ := exists_cons_of_front (by rwa [hfront])
  rw [hts] at hfront
  rw [manyAfter_cons hfront]
  refine Eq.trans ?_ (congrFun (bind_map_left _ item L) us).symm
  simp only [hL]

theorem forward_whileAt {lead : TokenKind} (hlead : lead ≠ .eof) {item : Parser α}
    (ht : ∀ ts, item.TakesAt ts) {done done' : List α} {ts rest : List Token}
    {round : Parser (List α)} (h : whileAt lead item done (front ts) = some round)
    (hround : round ts = .ok (done', rest)) : done' ≠ [] ∧ firstEnd rest < firstEnd ts := by
  obtain ⟨hfront, rfl⟩ := whileAt_eq_some h
  refine ⟨?_, bump_forward (fun us ↦ (ht us).map _) (by rwa [hfront]) hround⟩
  obtain ⟨-, middle, -, hitem⟩ := bind_eq_ok.1 hround
  rw [map_eq_pure_bind] at hitem
  obtain ⟨a, -, -, ⟨⟩⟩ := bind_eq_ok.1 hitem
  exact List.append_ne_nil_of_right_ne_nil _ (List.cons_ne_nil _ _)

theorem runs_whileAt {lead : TokenKind} (hlead : lead ≠ .eof) {item : Parser α} (hi : item.Keeps)
    (ht : ∀ ts, item.TakesAt ts) :
    (whileAt lead item).Runs (fun done ↦ manyAfter lead item hi done.reverse) fun _ ↦ True := by
  constructor
  case stop =>
    intro done ts h
    rw [manyAfter_of_ne (whileAt_eq_none.1 h), List.reverse_reverse]
  case next => exact fun done ts round h ↦ next_whileAt hlead hi (fun a ↦ by simp) h
  case atEnd => exact fun done t _ hend ↦ whileAt_eq_none.2 (by rw [hend]; exact hlead.symm)
  case forward => exact fun done ts round done' rest h hround ↦
    ⟨trivial, (forward_whileAt hlead ht h hround).2⟩

/-- What reads a list with commas, and behind its first items those that follow them. -/
def itemsBehind (close : TokenKind) (item : Parser α) (hi : item.Keeps) :
    List α → Parser (List α)
  | [] => listUntil close item hi
  | a :: done => manyAfter (.symbol .comma) item hi (a :: done).reverse

theorem commaList_nil_eq_some {close : TokenKind} {item : Parser α} {t : Token}
    {round : Parser (List α)} (h : commaList close item [] t = some round) :
    t.kind ≠ close ∧ round = (fun a ↦ [a]) <$> item := by
  rw [commaList] at h
  split at h
  · cases h
  · exact ⟨by assumption, (Option.some.inj h).symm⟩

/-- Only the first item is begun without a look for a comma. -/
theorem runs_commaList (close : TokenKind) {item : Parser α} (hi : item.Keeps)
    (ha : item.Advances) :
    (commaList close item).Runs (itemsBehind close item hi) (· ≠ []) := by
  have hcomma : TokenKind.symbol .comma ≠ .eof := by simp
  constructor
  case stop =>
    intro done ts h
    cases done with
    | nil => exact listUntil_of_close (by simpa [commaList] using h)
    | cons a done => rw [itemsBehind, manyAfter_of_ne (whileAt_eq_none.1 h), List.reverse_reverse]
  case next =>
    intro done ts round h
    cases done with
    | nil =>
      obtain ⟨hclose, rfl⟩ := commaList_nil_eq_some h
      rw [itemsBehind, listUntil_of_ne hclose]
      exact (congrFun (bind_map_left (fun a ↦ [a]) item (itemsBehind close item hi)) ts).symm
    | cons a done => exact next_whileAt hcomma hi (fun b ↦ by simp [itemsBehind]) h
  case atEnd =>
    intro done t hdone hend
    obtain ⟨a, done, rfl⟩ := List.exists_cons_of_ne_nil hdone
    exact whileAt_eq_none.2 (by rw [hend]; exact hcomma.symm)
  case forward =>
    intro done ts round done' rest h hround
    cases done with
    | nil =>
      obtain ⟨-, rfl⟩ := commaList_nil_eq_some h
      refine ⟨?_, (ha.map _).firstEnd_lt hround⟩
      rw [map_eq_pure_bind] at hround
      obtain ⟨a, -, -, ⟨⟩⟩ := bind_eq_ok.1 hround
      exact List.cons_ne_nil _ _
    | cons a done => exact forward_whileAt hcomma ha.takes h hround

end Loop

/-! ## The loops of the grammar -/

namespace Rules

/-- The loops of the grammar over `R`, each with the part of a rule that runs it. -/
structure LoopsEnd (R : Rules) : Prop where
  /-- The statements of a program. -/
  program : (Loop.whileNot (· = .eof) R.stmt).Ends 0 [] R.body
  /-- The statements of a block. -/
  block : (Loop.whileNot (fun k ↦ k = .symbol .closeBrace ∨ k = .eof) R.stmt).Ends 0 []
    (manyUntil (fun k ↦ k = .symbol .closeBrace ∨ k = .eof) R.stmt R.stmt_shrinks)
  /-- The statements of a case. -/
  caseBody : (Loop.whileNot (fun k ↦ k = .keyword .breakWord ∨ k = .eof) R.stmt).Ends 0 []
    (manyUntil (fun k ↦ k = .keyword .breakWord ∨ k = .eof) R.stmt R.stmt_shrinks)
  /-- The cases of a `switch`. -/
  cases : (Loop.whileAt (.keyword .caseWord) R.caseClause).Ends 0 []
    (manyAfter (.keyword .caseWord) R.caseClause R.keeps_caseClause [])
  /-- The arguments of a call. -/
  arguments : (Loop.commaList (.symbol .closeParen) R.expr).Ends 1 []
    (listUntil (.symbol .closeParen) R.expr R.keeps_expr)
  /-- The elements of an array. -/
  elements : (Loop.commaList (.symbol .closeBrace) R.expr).Ends 1 []
    (listUntil (.symbol .closeBrace) R.expr R.keeps_expr)
  /-- The parameters of a function. -/
  parameters : (Loop.commaList (.symbol .closeParen) parameter).Ends 1 []
    (listUntil (.symbol .closeParen) parameter shrinks_parameter.keeps)
  /-- The operators of multiplication behind an operand, and so on with the other two tiers. -/
  multiplicative : ∀ left, (Loop.extending (operation? multiplicativeOp? R.primary)).Ends 0 left
    (extend (operation? multiplicativeOp? R.primary)
      (keeps_operation? R.shrinks_primary.keeps) left)
  additive : ∀ left, (Loop.extending (operation? additiveOp? R.multiplicative)).Ends 0 left
    (extend (operation? additiveOp? R.multiplicative)
      (keeps_operation? R.shrinks_multiplicative.keeps) left)
  comparison : ∀ left, (Loop.extending (operation? comparisonOp? R.additive)).Ends 0 left
    (extend (operation? comparisonOp? R.additive)
      (keeps_operation? R.shrinks_additive.keeps) left)

theorem ends_tier {op? : TokenKind → Option BinaryOp} (heof : op? .eof = none)
    {operand : Parser Expr} (ho : operand.Keeps) (ha : operand.Advances) (left : Expr) :
    (Loop.extending (operation? op? operand)).Ends 0 left
      (extend (operation? op? operand) (keeps_operation? ho) left) := by
  refine (Loop.runs_extending (fun t hend ↦ ?_) (keeps_operation? ho) ?_).ends trivial
  · rw [operation?, hend, heof]
    rfl
  · intro t rule hrule left ts
    obtain ⟨op, -, rfl⟩ := Option.map_eq_some_iff.1 hrule
    cases op with
    | step op => exact takesAt_pure _ ts
    | arithmetic | assignment | comparison => exact (ha.takes ts).map _

theorem Takes.loopsEnd {R : Rules} (h : R.Takes) : R.LoopsEnd := by
  have ha := h.advances
  have hclause := h.inner.caseClause localCongruence_takes.congruence.toCompositional
  constructor
  case program => exact (Loop.runs_whileNot (by decide) R.stmt_shrinks ha.stmt).ends trivial
  case block => exact (Loop.runs_whileNot (by decide) R.stmt_shrinks ha.stmt).ends trivial
  case caseBody => exact (Loop.runs_whileNot (by decide) R.stmt_shrinks ha.stmt).ends trivial
  case cases => exact (Loop.runs_whileAt (by decide) R.keeps_caseClause hclause).ends trivial
  case arguments => exact (Loop.runs_commaList _ R.keeps_expr ha.expr).ends_one []
  case elements => exact (Loop.runs_commaList _ R.keeps_expr ha.expr).ends_one []
  case parameters =>
    exact (Loop.runs_commaList _ shrinks_parameter.keeps ha.parameter).ends_one []
  case multiplicative => exact ends_tier rfl R.shrinks_primary.keeps ha.primary
  case additive => exact ends_tier rfl R.shrinks_multiplicative.keeps ha.multiplicative
  case comparison => exact ends_tier rfl R.shrinks_additive.keeps ha.additive

end Rules

end SvLang
