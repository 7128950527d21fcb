import SvLang.Grammar

/-!
# Choices and loops, step by step

The equations by which a choice is made and a loop goes on for one more round, in terms of the other
operations on parsers.  A round of a loop is a sequence, so what is known of sequences holds of it.
-/

set_option autoImplicit false

namespace SvLang.Parser

variable {α : Type}

/-! ## Choices -/

/-- Where there is no rule for the token at the front, it is left there. -/
theorem branch_of_none {rule? : Token → Option (Parser α)} {otherwise : Parser α} {ts : List Token}
    (h : rule? (front ts) = none) : branch rule? otherwise ts = otherwise ts := by
  cases ts with
  | nil => rfl
  | cons t ts =>
    have ht : rule? t = none := h
    rw [branch, ht]

/-- Where there is a rule for the token at the front, it is taken. -/
theorem branch_of_some {rule? : Token → Option (Parser α)} {otherwise rule : Parser α} {t : Token}
    (h : rule? t = some rule) (ts : List Token) : branch rule? otherwise (t :: ts) = rule ts := by
  rw [branch, h]

/-- The rule for the token that has to stand at a place. -/
def landmarkRule? (place : Landmark) (t : Token) : Option (Parser String) :=
  if t.kind = place.kind then some (pure t.text) else none

/-- A token that has to stand there is a choice whose only alternative is to refuse. -/
theorem expect_eq_branch (place : Landmark) :
    expect place = branch (landmarkRule? place) (do fail (.expected place (← kind))) := by
  funext ts
  cases ts with
  | nil => rfl
  | cons t ts =>
    by_cases ht : t.kind = place.kind
    · have hrule : landmarkRule? place t = some (pure t.text) := if_pos ht
      rw [expect, if_pos ht, branch_of_some hrule]
      rfl
    · have hrule : landmarkRule? place (front (t :: ts)) = none := if_neg ht
      rw [expect, if_neg ht, branch_of_none hrule]
      rfl

/-! ## Loops -/

/-- Items are read one after another until there is a kind to stop at. -/
theorem manyUntilFrom_eq (stop : TokenKind → Bool) (item : Parser α) (hi : item.Shrinks)
    (done : List α) (ts : List Token) :
    manyUntilFrom stop item hi done ts =
      if stop (front ts).kind then .ok (done.reverse, ts)
      else (item >>= fun a ↦ manyUntilFrom stop item hi (a :: done)) ts := by
  rw [manyUntilFrom]
  refine ite_congr rfl (fun _ ↦ rfl) fun _ ↦ ?_
  refine Eq.trans ?_ (bind_apply item (fun a ↦ manyUntilFrom stop item hi (a :: done)) ts).symm
  split
  · rename_i h
    rw [h]
  · rename_i h
    dsimp only
    rw [h]

/-- Behind an item that is read, the loop goes on with one item more. -/
theorem manyUntilFrom_of_ok {stop : TokenKind → Bool} {item : Parser α} {hi : item.Shrinks}
    {done : List α} {ts rest : List Token} {a : α} (hstop : ¬ stop (front ts).kind)
    (ha : item ts = .ok (a, rest)) :
    manyUntilFrom stop item hi done ts = manyUntilFrom stop item hi (a :: done) rest := by
  rw [manyUntilFrom_eq, if_neg hstop]
  refine (bind_apply item (fun a ↦ manyUntilFrom stop item hi (a :: done)) ts).trans ?_
  rw [ha]

/-- To extend what has been read is a choice: to go on, or to be done. -/
theorem extend_eq_branch (more? : Token → Option (α → Parser α))
    (hm : ∀ t rule, more? t = some rule → ∀ a, (rule a).Keeps) (a : α) :
    extend more? hm a = branch
      (fun t ↦ (more? t).map fun rule ↦ rule a >>= fun b ↦ extend more? hm b) (pure a) := by
  funext ts
  cases ts with
  | nil =>
    rw [extend]
    rfl
  | cons t ts =>
    rw [extend]
    split
    · rename_i hr
      rw [branch_of_none (by rw [front, List.headD_cons, hr]; rfl)]
      rfl
    · rename_i rule hr
      rw [branch_of_some (by rw [hr]; rfl)]
      refine Eq.trans ?_ (bind_apply (rule a) (fun b ↦ extend more? hm b) ts).symm
      split
      · rename_i h
        rw [h]
      · rename_i h
        dsimp only
        rw [h]

/-- Where nothing extends it, what has been read is the result. -/
theorem extend_of_none {more? : Token → Option (α → Parser α)}
    {hm : ∀ t rule, more? t = some rule → ∀ a, (rule a).Keeps} {ts : List Token}
    (h : more? (front ts) = none) (a : α) : extend more? hm a ts = .ok (a, ts) := by
  rw [extend_eq_branch, branch_of_none (by rw [h]; rfl), pure_apply]

/-- Behind what extends it, what has been read is extended further. -/
theorem extend_of_some {more? : Token → Option (α → Parser α)}
    {hm : ∀ t rule, more? t = some rule → ∀ a, (rule a).Keeps} {t : Token} {rule : α → Parser α}
    (h : more? t = some rule) (a : α) (ts : List Token) :
    extend more? hm a (t :: ts) = (rule a >>= fun b ↦ extend more? hm b) ts := by
  rw [extend_eq_branch, branch_of_some (by rw [h]; rfl)]

/-- Where no token of kind `lead` is at the front, the items that are done are all of them. -/
theorem manyAfter_of_ne {lead : TokenKind} {item : Parser α} {hi : item.Keeps} {ts : List Token}
    (h : (front ts).kind ≠ lead) (done : List α) :
    manyAfter lead item hi done ts = .ok (done.reverse, ts) := by
  refine (bind_apply _ _ ts).trans ?_
  rw [extend_of_none (if_neg h)]
  rfl

/-- Behind a token of kind `lead`, one more item is read. -/
theorem manyAfter_cons {lead : TokenKind} {item : Parser α} {hi : item.Keeps} {t : Token}
    (h : t.kind = lead) (done : List α) (ts : List Token) :
    manyAfter lead item hi done (t :: ts) =
      (item >>= fun a ↦ manyAfter lead item hi (a :: done)) ts := by
  refine (bind_apply _ _ (t :: ts)).trans ?_
  rw [extend_of_some (if_pos h)]
  refine (bind_apply (_ >>= _) _ ts).symm.trans ?_
  refine (congrFun (bind_assoc_apply _ _ _) ts).trans ?_
  exact congrFun (bind_map_left _ item _) ts

/-- In front of the kind that closes it, a list has no items. -/
theorem listUntil_of_close {close : TokenKind} {item : Parser α} {hi : item.Keeps}
    {ts : List Token} (h : (front ts).kind = close) :
    listUntil close item hi ts = .ok ([], ts) := by
  show (if (front ts).kind = close then pure [] else _ : Parser (List α)) ts = _
  rw [if_pos h, pure_apply]

/-- Else it has a first item, and those behind it. -/
theorem listUntil_of_ne {close : TokenKind} {item : Parser α} {hi : item.Keeps}
    {ts : List Token} (h : (front ts).kind ≠ close) :
    listUntil close item hi ts =
      (item >>= fun a ↦ manyAfter (.symbol .comma) item hi [a]) ts := by
  show (if (front ts).kind = close then pure [] else _ : Parser (List α)) ts = _
  rw [if_neg h]

end SvLang.Parser
