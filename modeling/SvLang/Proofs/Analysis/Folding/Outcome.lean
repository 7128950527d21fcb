import SvLang.Proofs.Analysis.Folding.Places

/-!
# The outcome of folding

Folding computes the maximal arithmetic on numbers and leaves alone all else.  If nowhere else
arithmetic stands, it comes to its end, and no arithmetic is left (`toExcept_fold_ok`).  Otherwise
it stops at the first place, in post-order, where arithmetic has an operand that is no arithmetic on
numbers, and what comes before that place has been computed (`exists_stops`).

Both statements compare the outcome with the expression as it was.  The order of the computation
shows in one thing only: in what stands *before* the place where it stops.
-/

set_option autoImplicit false

namespace SvLang

namespace Rewritten

variable {α : Type} {r : Rewritten α}

theorem toExcept_eq_ok_iff {a : α} : r.toExcept = .ok a ↔ r.error? = none ∧ r.value = a := by
  rw [toExcept]
  cases r.error? <;> simp

theorem toExcept_eq_error_iff {e : SemanticError} :
    r.toExcept = .error e ↔ r.error? = some e := by
  rw [toExcept]
  cases r.error? <;> simp

end Rewritten

namespace Expr

/-! ## Where arithmetic fails -/

/-- Arithmetic stands at the place, and one of its operands is no arithmetic on numbers. -/
def FailsAt (e : Expr) (p : Place) : Prop :=
  ∃ left a right, e.at? p = some (binary left (.arithmetic a) right) ∧
    ¬ (left.isArithmetic ∧ right.isArithmetic)

theorem failsAt_cons {left right : Expr} {op : BinaryOp} {s : Side} {p : Place} :
    (binary left op right).FailsAt (s :: p) ↔ (s.of left right).FailsAt p := Iff.rfl

/-- Folding comes to its end if and only if arithmetic fails nowhere. -/
theorem error?_fold_eq_none_iff {e : Expr} : e.fold.error? = none ↔ ∀ p, ¬ e.FailsAt p := by
  rw [fold_error?_eq_none_iff]
  constructor
  · rintro h p ⟨left, a, right, hp, hfails⟩
    exact hfails (h left a right (reaches_iff.2 ⟨p, hp⟩))
  · intro h left a right hreaches
    obtain ⟨p, hp⟩ := reaches_iff.1 hreaches
    by_contra hfails
    exact h p ⟨left, a, right, hp, hfails⟩

/-! ## Folding that comes to its end -/

/-- An operation that is no arithmetic on numbers keeps its operator. -/
theorem value_fold_binary {left right : Expr} {op : BinaryOp}
    (h : (binary left op right).fold.error? = none)
    (hop : (binary left op right).isArithmetic = false) :
    (∀ a, op ≠ .arithmetic a) ∧
      (binary left op right).fold.value = binary left.fold.value op right.fold.value := by
  rw [error?_fold_binary, Option.or_eq_none_iff, Option.or_eq_none_iff] at h
  obtain ⟨hleft, hright, hcombine⟩ := h
  rw [fold_binary op hleft hright]
  cases op with
  | arithmetic a =>
    obtain ⟨hl, hr⟩ := error?_combine_arithmetic.1 hcombine
    rw [isNumber_fold hleft] at hl
    rw [isNumber_fold hright] at hr
    simp [isArithmetic, hl, hr] at hop
  | assignment | step | comparison => exact ⟨by simp, rfl⟩

/-- **What folding leaves behind at its end**: the maximal arithmetic on numbers is computed, and
all else is as it was. -/
theorem value_fold {e : Expr} (h : e.fold.error? = none) :
    e.fold.value = e.computeWhere e.Maximal := by
  induction e using fold.induct with
  | case1 left op right ihleft ihright =>
    cases hop : (binary left op right).isArithmetic with
    | true =>
      rw [fold_of_isArithmetic hop, computeWhere, if_pos (maximal_nil.2 hop)]
      rfl
    | false =>
      have hroot : ¬ (binary left op right).Maximal [] := by simp [maximal_nil, hop]
      rw [(value_fold_binary h hop).2, computeWhere_binary hroot,
        computeWhere_congr (maximal_cons hop .left), computeWhere_congr (maximal_cons hop .right)]
      rw [error?_fold_binary, Option.or_eq_none_iff, Option.or_eq_none_iff] at h
      rw [ihleft h.1, ihright h.2.1]
      rfl
  | case2 e he =>
    rw [fold_of_ne he]
    cases e with
    | binary left op right => exact absurd rfl (he left op right)
    | _ => rfl

/-- At its end, no arithmetic is left. -/
theorem at?_value_fold_ne {e : Expr} (h : e.fold.error? = none) (p : Place) (left : Expr)
    (a : ArithmeticOp) (right : Expr) :
    e.fold.value.at? p ≠ some (binary left (.arithmetic a) right) := by
  induction e using fold.induct generalizing p with
  | case1 l op r ihleft ihright =>
    cases hop : (binary l op r).isArithmetic with
    | true =>
      rw [fold_of_isArithmetic hop]
      cases p with
      | nil => simp [Rewritten.done, computed]
      | cons s p => simp [Rewritten.done, computed, at?]
    | false =>
      obtain ⟨hkept, hvalue⟩ := value_fold_binary h hop
      rw [error?_fold_binary, Option.or_eq_none_iff, Option.or_eq_none_iff] at h
      rw [hvalue]
      cases p with
      | nil =>
        rw [at?_nil]
        rintro ⟨⟩
        exact hkept a rfl
      | cons s p =>
        rw [at?_binary_cons]
        cases s with
        | left => exact ihleft h.1 p
        | right => exact ihright h.2.1 p
  | case2 e he =>
    rw [fold_of_ne he]
    cases p with
    | nil =>
      rw [at?_nil]
      rintro ⟨⟩
      exact he _ _ _ rfl
    | cons s p => simp [Rewritten.done, at?_cons_of_ne he]

/-- **Folding that succeeds.**  It does so if and only if all arithmetic that stands anywhere is
arithmetic on numbers.  Then the result is the expression with the maximal arithmetic on numbers
computed, each to one number of the widest class in it, and with all else as it was; and no
arithmetic is left. -/
theorem toExcept_fold_ok (e : Expr) :
    ((∃ e', e.fold.toExcept = .ok e') ↔
      ∀ p left a right, e.at? p = some (binary left (.arithmetic a) right) →
        (binary left (.arithmetic a) right).isArithmetic) ∧
    ∀ e', e.fold.toExcept = .ok e' →
      e' = e.computeWhere e.Maximal ∧
      ∀ p left a right, e'.at? p ≠ some (binary left (.arithmetic a) right) := by
  simp only [Rewritten.toExcept_eq_ok_iff]
  refine ⟨?_, ?_⟩
  · rw [exists_and_left, error?_fold_eq_none_iff]
    simp [FailsAt, isArithmetic]
  · rintro e' ⟨h, rfl⟩
    exact ⟨value_fold h, at?_value_fold_ne h⟩

/-- A comparison of a sum, of numbers of two classes, with a name. -/
theorem toExcept_fold_ok_comparison :
    ∃ e e' : Expr, e.fold.toExcept = .ok e' ∧ e.places.length = 5 ∧ e'.places.length = 3 ∧
      (∀ p left a right, e.at? p = some (binary left (.arithmetic a) right) →
        (binary left (.arithmetic a) right).isArithmetic) ∧
      e' = e.computeWhere e.Maximal ∧
      ∀ p left a right, e'.at? p ≠ some (binary left (.arithmetic a) right) := by
  let e : Expr := .binary (.binary (.number .numeric 1) (.arithmetic .add) (.number .float 0.5))
    (.comparison .less) (.identifier ⟨"y", none⟩)
  let e' : Expr := .binary (.number .float (1 + 0.5)) (.comparison .less) (.identifier ⟨"y", none⟩)
  have h : e.fold.toExcept = .ok e' := rfl
  obtain ⟨hiff, hdone⟩ := toExcept_fold_ok e
  exact ⟨e, e', h, rfl, rfl, hiff.1 ⟨e', h⟩, hdone e' h⟩

/-! ## Folding that stops -/

/-- What stops is no arithmetic on numbers. -/
theorem isArithmetic_eq_false {e : Expr} {err : SemanticError} (h : e.fold.error? = some err) :
    e.isArithmetic = false := by
  by_contra hpure
  rw [Bool.not_eq_false] at hpure
  rw [fold_of_isArithmetic hpure] at h
  cases h

/-- Folding fails with an error, having stopped at the place `p`; `before` are the places in front
of it, and `after` are those that follow. -/
structure Stops (e : Expr) (err : SemanticError) (before : List Place) (p : Place)
    (after : List Place) : Prop where
  /-- Who asks for the folded expression alone gets the error. -/
  error : e.fold.toExcept = .error err
  /-- In post-order. -/
  places : e.places = before ++ p :: after
  /-- In front of the place, no arithmetic fails. -/
  first : ∀ q ∈ before, ¬ e.FailsAt q
  /-- At the place it does.  The error holds its operator, and it describes the left operand unless
  this is arithmetic on numbers, and else the right one, as they are left behind. -/
  fails : ∃ left a right left' right', e.at? p = some (binary left (.arithmetic a) right) ∧
    ¬ (left.isArithmetic ∧ right.isArithmetic) ∧
    e.fold.value.at? p = some (binary left' (.arithmetic a) right') ∧
    err = .notANumber (if left.isArithmetic then right'.describe else left'.describe) a
  /-- In front of the place, the maximal arithmetic on numbers has been computed; all else is as it
  was. -/
  value : e.fold.value = e.computeWhere fun q ↦ e.Maximal q ∧ q ∈ before

section Stops

variable {left right : Expr} {op : BinaryOp} {err : SemanticError} {before after : List Place}
  {p : Place}

/-- What is computed in an operation that is no arithmetic on numbers is what is computed in its two
operands. -/
theorem computeWhere_maximal (hop : (binary left op right).isArithmetic = false)
    (before : List Place) :
    (binary left op right).computeWhere
        (fun q ↦ (binary left op right).Maximal q ∧ q ∈ before) =
      binary (left.computeWhere fun q ↦ left.Maximal q ∧ .left :: q ∈ before) op
        (right.computeWhere fun q ↦ right.Maximal q ∧ .right :: q ∈ before) := by
  have hroot : ¬ ((binary left op right).Maximal [] ∧ [] ∈ before) := by simp [maximal_nil, hop]
  rw [computeWhere_binary hroot]
  congr 1
  · exact computeWhere_congr (fun q ↦ and_congr_left' (maximal_cons hop .left q)) left
  · exact computeWhere_congr (fun q ↦ and_congr_left' (maximal_cons hop .right q)) right

/-- Folding stops in the left operand. -/
theorem Stops.inLeft (h : left.Stops err before p after) :
    (binary left op right).Stops err (before.map (.left :: ·)) (.left :: p)
      (after.map (.left :: ·) ++ (right.places.map (.right :: ·) ++ [[]])) := by
  have hleft := Rewritten.toExcept_eq_error_iff.1 h.error
  have hfold : (binary left op right).fold = .stopped (binary left.fold.value op right) err := by
    rw [fold, Rewritten.andThen, hleft]
  have herror : (binary left op right).fold.error? = some err := by rw [hfold]; rfl
  refine ⟨Rewritten.toExcept_eq_error_iff.2 herror, ?_, ?_, ?_, ?_⟩
  · simp [Expr.places, h.places]
  · intro q hq
    obtain ⟨q', hq', rfl⟩ := List.mem_map.1 hq
    rw [failsAt_cons]
    exact h.first q' hq'
  · rw [hfold]
    exact h.fails
  · rw [computeWhere_maximal (isArithmetic_eq_false herror), hfold]
    have hl : left.computeWhere (fun q ↦ left.Maximal q ∧ .left :: q ∈ before.map (.left :: ·)) =
        left.fold.value := by
      rw [h.value]
      exact computeWhere_congr (by simp) left
    have hr : right.computeWhere
        (fun q ↦ right.Maximal q ∧ .right :: q ∈ before.map (.left :: ·)) = right :=
      computeWhere_eq_self (by simp) right
    rw [hl, hr]
    rfl

/-- Folding comes to the end of the left operand and stops in the right one. -/
theorem Stops.inRight (h : right.Stops err before p after) (hleft : left.fold.error? = none) :
    (binary left op right).Stops err
      (left.places.map (.left :: ·) ++ before.map (.right :: ·)) (.right :: p)
      (after.map (.right :: ·) ++ [[]]) := by
  have hright := Rewritten.toExcept_eq_error_iff.1 h.error
  have hfold : (binary left op right).fold =
      .stopped (binary left.fold.value op right.fold.value) err := by
    rw [fold, Rewritten.andThen, hleft]
    simp only [Rewritten.andThen, hright]
  have herror : (binary left op right).fold.error? = some err := by rw [hfold]; rfl
  refine ⟨Rewritten.toExcept_eq_error_iff.2 herror, ?_, ?_, ?_, ?_⟩
  · simp [Expr.places, h.places]
  · intro q hq
    rcases List.mem_append.1 hq with hq | hq
    · obtain ⟨q', -, rfl⟩ := List.mem_map.1 hq
      rw [failsAt_cons]
      exact error?_fold_eq_none_iff.1 hleft q'
    · obtain ⟨q', hq', rfl⟩ := List.mem_map.1 hq
      rw [failsAt_cons]
      exact h.first q' hq'
  · rw [hfold]
    exact h.fails
  · rw [computeWhere_maximal (isArithmetic_eq_false herror), hfold]
    have hl : left.computeWhere (fun q ↦ left.Maximal q ∧
        .left :: q ∈ left.places.map (.left :: ·) ++ before.map (.right :: ·)) =
          left.fold.value := by
      rw [value_fold hleft]
      refine computeWhere_congr (fun q ↦ ?_) left
      simpa using Maximal.mem_places
    have hr : right.computeWhere (fun q ↦ right.Maximal q ∧
        .right :: q ∈ left.places.map (.left :: ·) ++ before.map (.right :: ·)) =
          right.fold.value := by
      rw [h.value]
      exact computeWhere_congr (by simp) right
    rw [hl, hr]
    rfl

/-- Of two operands that are not both numbers, the error describes the first one that is none. -/
theorem evaluate_eq_error {a : ArithmeticOp} (h : ¬ (left.isNumber ∧ right.isNumber)) :
    evaluate left a right =
      .error (.notANumber (if left.isNumber then right.describe else left.describe) a) := by
  cases left with
  | number v x =>
    cases right with
    | number w y => exact absurd ⟨rfl, rfl⟩ h
    | _ => rfl
  | _ => rfl

/-- An operation that cannot be computed is arithmetic, and one of its operands is no number. -/
theorem combine_of_error (h : (combine left op right).error? = some err) :
    ∃ a, op = .arithmetic a ∧ (combine left op right).value = binary left op right ∧
      ¬ (left.isNumber ∧ right.isNumber) ∧
      err = .notANumber (if left.isNumber then right.describe else left.describe) a := by
  cases op with
  | arithmetic a =>
    have hnumbers : ¬ (left.isNumber ∧ right.isNumber) := by
      intro hboth
      rw [error?_combine_arithmetic.2 hboth] at h
      cases h
    rw [combine, evaluate_eq_error hnumbers] at h ⊢
    cases h
    exact ⟨a, rfl, rfl, hnumbers, rfl⟩
  | assignment | step | comparison => cases h

/-- Folding comes to the end of both operands and stops at the operation itself. -/
theorem stops_here (hleft : left.fold.error? = none) (hright : right.fold.error? = none)
    (h : (combine left.fold.value op right.fold.value).error? = some err) :
    (binary left op right).Stops err
      (left.places.map (.left :: ·) ++ right.places.map (.right :: ·)) [] [] := by
  have hfold := fold_binary op hleft hright
  have herror : (binary left op right).fold.error? = some err := by rw [hfold, h]
  obtain ⟨a, rfl, hvalue, hnumbers, herr⟩ := combine_of_error h
  simp only [isNumber_fold hleft, isNumber_fold hright] at hnumbers herr
  refine ⟨Rewritten.toExcept_eq_error_iff.2 herror, rfl, ?_,
    ⟨left, a, right, left.fold.value, right.fold.value, rfl, hnumbers, ?_, herr⟩, ?_⟩
  · intro q hq
    rcases List.mem_append.1 hq with hq | hq
    · obtain ⟨q', -, rfl⟩ := List.mem_map.1 hq
      rw [failsAt_cons]
      exact error?_fold_eq_none_iff.1 hleft q'
    · obtain ⟨q', -, rfl⟩ := List.mem_map.1 hq
      rw [failsAt_cons]
      exact error?_fold_eq_none_iff.1 hright q'
  · rw [hfold, hvalue]
    rfl
  · rw [computeWhere_maximal (isArithmetic_eq_false herror), hfold, hvalue, value_fold hleft,
      value_fold hright]
    congr 1
    · refine computeWhere_congr (fun q ↦ ?_) left
      simpa using Maximal.mem_places
    · refine computeWhere_congr (fun q ↦ ?_) right
      simpa using Maximal.mem_places

end Stops

/-- **Folding that fails.**  It has stopped at the first place, in post-order, where arithmetic has
an operand that is no arithmetic on numbers.  The error holds the operator there and describes the
first such operand.  What is left behind is the expression with the maximal arithmetic on numbers in
front of that place computed, and with all else as it was. -/
theorem exists_stops {e : Expr} {err : SemanticError} (h : e.fold.error? = some err) :
    ∃ before p after, e.Stops err before p after := by
  induction e using fold.induct with
  | case1 left op right ihleft ihright =>
    rw [error?_fold_binary] at h
    cases hleft : left.fold.error? with
    | some err' =>
      rw [hleft] at h
      cases h
      obtain ⟨before, p, after, hstops⟩ := ihleft hleft
      exact ⟨_, _, _, hstops.inLeft⟩
    | none =>
      cases hright : right.fold.error? with
      | some err' =>
        rw [hleft, hright] at h
        cases h
        obtain ⟨before, p, after, hstops⟩ := ihright hright
        exact ⟨_, _, _, hstops.inRight hleft⟩
      | none =>
        rw [hleft, hright] at h
        exact ⟨_, _, _, stops_here hleft hright h⟩
  | case2 e he =>
    rw [fold_of_ne he] at h
    cases h

/-- A sum fails on its left operand, behind one product and in front of another; its own right
operand is computed. -/
theorem exists_stops_sum :
    ∃ e : Expr, e.fold.error? = some (.notANumber "'x'" .add) ∧ e.places.length = 13 ∧
      ∃ before p after, e.Stops (.notANumber "'x'" .add) before p after := by
  let product (x y : Float) : Expr :=
    .binary (.number .numeric x) (.arithmetic .multiply) (.number .numeric y)
  let sum : Expr := .binary (.identifier ⟨"x", none⟩) (.arithmetic .add) (product 3 4)
  let e : Expr := .binary (.binary (product 1 2) (.comparison .less) sum) (.arithmetic .subtract)
    (product 5 6)
  have h : e.fold.error? = some (.notANumber "'x'" .add) := by decide +kernel
  exact ⟨e, h, rfl, exists_stops h⟩

end Expr

end SvLang
