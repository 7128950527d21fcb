import Mathlib.Data.List.Forall2
import SvLang.Proofs.Analysis.Run

/-!
# What folding does to an expression

Folding goes down from an operation to its operands as long as these are operations themselves.  It
fails where arithmetic that it reaches has an operand that is neither a number nor arithmetic, and
nowhere else (`fold_error?_eq_none_iff`).

Whether or not it fails, it only puts numbers in the place of arithmetic on numbers
(`partlyFolded_fold`).
-/

set_option autoImplicit false

namespace SvLang

/-- The error of a rewriting in two steps is the error of the first step, or else of the second. -/
theorem Rewritten.error?_andThen {α β : Type} (r : Rewritten α) (orElse : α → β)
    (next : α → Rewritten β) :
    (r.andThen orElse next).error? = r.error?.or (next r.value).error? := by
  rw [andThen]
  cases r.error? with
  | none => rfl
  | some e => rfl

/-! ## Classes of number -/

/-- The widest of some classes of number. -/
def Width.widest (ws : List Width) : Width :=
  if .double ∈ ws then .double else if .float ∈ ws then .float else .numeric

theorem Width.widest_append (vs ws : List Width) :
    widest (vs ++ ws) = (widest vs).max (widest ws) := by
  simp only [widest, List.mem_append]
  by_cases hv : .double ∈ vs <;> by_cases hw : .double ∈ ws <;> by_cases hv' : .float ∈ vs <;>
    by_cases hw' : .float ∈ ws <;> simp [hv, hw, hv', hw', Width.max]

theorem Width.widest_singleton (w : Width) : widest [w] = w := by
  cases w <;> rfl

namespace Expr

/-! ## Arithmetic on numbers -/

/-- Whether the expression is a number, or arithmetic on such expressions. -/
def isArithmetic : Expr → Bool
  | number .. => true
  | binary left (.arithmetic _) right => left.isArithmetic && right.isArithmetic
  | _ => false

/-- The first expression holds the second one, and all that stands above it are operations. -/
inductive Reaches : Expr → Expr → Prop where
  | refl (e : Expr) : Reaches e e
  | left {left right e : Expr} (op : BinaryOp) (h : Reaches left e) :
      Reaches (binary left op right) e
  | right {left right e : Expr} (op : BinaryOp) (h : Reaches right e) :
      Reaches (binary left op right) e

/-- Wherever arithmetic is reached, its operands are numbers or arithmetic. -/
def ComputesOnNumbers (e : Expr) : Prop :=
  ∀ left op right, e.Reaches (binary left (.arithmetic op) right) →
    left.isArithmetic ∧ right.isArithmetic

/-- An operation computes on numbers if its operands do, and if they are numbers or arithmetic where
the operation is arithmetic. -/
theorem computesOnNumbers_binary {left right : Expr} {op : BinaryOp} :
    (binary left op right).ComputesOnNumbers ↔ left.ComputesOnNumbers ∧ right.ComputesOnNumbers ∧
      ∀ a, op = .arithmetic a → left.isArithmetic ∧ right.isArithmetic := by
  constructor
  · intro h
    refine ⟨fun l a r hl ↦ h l a r (.left op hl), fun l a r hr ↦ h l a r (.right op hr), ?_⟩
    rintro a rfl
    exact h left a right (.refl _)
  · rintro ⟨hleft, hright, hop⟩ l a r hreach
    cases hreach with
    | refl => exact hop a rfl
    | left _ h => exact hleft l a r h
    | right _ h => exact hright l a r h

/-- What is no operation reaches nothing else. -/
theorem computesOnNumbers_of_ne {e : Expr} (he : ∀ l op r, e ≠ binary l op r) :
    e.ComputesOnNumbers := by
  rintro l a r hreach
  cases hreach with
  | refl => exact absurd rfl (he _ _ _)
  | left op h => exact absurd rfl (he _ _ _)
  | right op h => exact absurd rfl (he _ _ _)

/-! ## When folding fails -/

theorem isNumber_iff {e : Expr} : e.isNumber ↔ ∃ w x, e = number w x := by
  constructor
  · intro h
    cases e with
    | number w x => exact ⟨w, x, rfl⟩
    | _ => cases h
  · rintro ⟨w, x, rfl⟩
    rfl

theorem error?_fold_binary (left : Expr) (op : BinaryOp) (right : Expr) :
    (binary left op right).fold.error? =
      left.fold.error?.or
        (right.fold.error?.or (combine left.fold.value op right.fold.value).error?) := by
  rw [fold, Rewritten.error?_andThen, Rewritten.error?_andThen]

/-- Arithmetic can be computed on two numbers and on nothing else. -/
theorem error?_combine_arithmetic {left right : Expr} {a : ArithmeticOp} :
    (combine left (.arithmetic a) right).error? = none ↔ left.isNumber ∧ right.isNumber := by
  constructor
  · intro h
    rw [combine] at h
    cases he : evaluate left a right with
    | error e =>
      rw [he] at h
      cases h
    | ok e =>
      rw [evaluate.eq_def] at he
      split at he <;> cases he
      exact ⟨rfl, rfl⟩
  · rintro ⟨hleft, hright⟩
    obtain ⟨v, x, rfl⟩ := isNumber_iff.1 hleft
    obtain ⟨w, y, rfl⟩ := isNumber_iff.1 hright
    rfl

/-- What is no operation is left alone. -/
theorem fold_of_ne {e : Expr} (he : ∀ l op r, e ≠ binary l op r) : e.fold = .done e := by
  cases e with
  | binary left op right => exact absurd rfl (he left op right)
  | _ => rfl

/-- An operation whose operands are folded without error is put together from what they are folded
to. -/
theorem fold_binary {left right : Expr} (op : BinaryOp) (hleft : left.fold.error? = none)
    (hright : right.fold.error? = none) :
    (binary left op right).fold = combine left.fold.value op right.fold.value := by
  rw [fold, Rewritten.andThen, hleft]
  simp only [Rewritten.andThen, hright]

/-- Without an error, folding gives a number for numbers and arithmetic, and for nothing else. -/
theorem isNumber_fold {e : Expr} (h : e.fold.error? = none) :
    e.fold.value.isNumber ↔ e.isArithmetic := by
  induction e using fold.induct with
  | case1 left op right ihleft ihright =>
    rw [error?_fold_binary, Option.or_eq_none_iff, Option.or_eq_none_iff] at h
    obtain ⟨hleft, hright, hcombine⟩ := h
    rw [fold_binary op hleft hright]
    cases op with
    | arithmetic a =>
      obtain ⟨hl, hr⟩ := error?_combine_arithmetic.1 hcombine
      have harithmetic : (binary left (.arithmetic a) right).isArithmetic := by
        rw [isArithmetic, Bool.and_eq_true]
        exact ⟨(ihleft hleft).1 hl, (ihright hright).1 hr⟩
      exact iff_of_true (isNumber_iff.2 (combine_arithmetic hcombine)) harithmetic
    | assignment | step | comparison => exact iff_of_false nofun nofun
  | case2 e he =>
    cases e with
    | binary left op right => exact absurd rfl (he left op right)
    | _ => rfl

/-- An operation is folded to a number if it is arithmetic on numbers, and to an operation if it is
not. -/
theorem fold_binary_cases {left right : Expr} {op : BinaryOp}
    (h : (binary left op right).fold.error? = none) :
    ((binary left op right).isArithmetic = true ∧
        ∃ w x, (binary left op right).fold.value = number w x) ∨
      ((binary left op right).isArithmetic = false ∧
        ∃ l o r, (binary left op right).fold.value = binary l o r) := by
  rcases fold_cases h with ⟨hne, -⟩ | hnumber | ⟨l, o, r, hvalue, -⟩
  · exact absurd rfl (hne _ _ _)
  · exact .inl ⟨(isNumber_fold h).1 (isNumber_iff.2 hnumber), hnumber⟩
  · refine .inr ⟨?_, l, o, r, hvalue⟩
    rw [← Bool.not_eq_true, ← isNumber_fold h, hvalue]
    exact Bool.false_ne_true

/-- **Folding fails exactly where it reaches arithmetic on something else than numbers.** -/
theorem fold_error?_eq_none_iff (e : Expr) : e.fold.error? = none ↔ e.ComputesOnNumbers := by
  induction e using fold.induct with
  | case1 left op right ihleft ihright =>
    rw [error?_fold_binary, Option.or_eq_none_iff, Option.or_eq_none_iff,
      computesOnNumbers_binary, ihleft, ihright]
    refine and_congr_right fun hleft ↦ and_congr_right fun hright ↦ ?_
    rw [← isNumber_fold (ihleft.2 hleft), ← isNumber_fold (ihright.2 hright)]
    cases op with
    | arithmetic a =>
      rw [error?_combine_arithmetic]
      constructor
      · rintro h _ ⟨⟩
        exact h
      · exact fun h ↦ h a rfl
    | assignment | step | comparison => exact iff_of_true rfl nofun
  | case2 e he =>
    rw [fold_of_ne he]
    exact iff_of_true rfl (computesOnNumbers_of_ne he)

/-! ## What folding leaves behind -/

/-- The second expression is the first one with numbers in the place of some arithmetic on
numbers. -/
inductive PartlyFolded : Expr → Expr → Prop where
  | refl (e : Expr) : PartlyFolded e e
  | operands {left left' right right' : Expr} (op : BinaryOp) (hleft : PartlyFolded left left')
      (hright : PartlyFolded right right') :
      PartlyFolded (binary left op right) (binary left' op right')
  | computed {left right : Expr} {v w : Width} {x y : Float} (a : ArithmeticOp)
      (hleft : PartlyFolded left (number v x)) (hright : PartlyFolded right (number w y)) :
      PartlyFolded (binary left (.arithmetic a) right) (number (v.max w) (a.apply x y))

theorem PartlyFolded.combine {left left' right right' : Expr} (op : BinaryOp)
    (hleft : PartlyFolded left left') (hright : PartlyFolded right right') :
    PartlyFolded (binary left op right) (combine left' op right').value := by
  cases op with
  | arithmetic a =>
    rw [Expr.combine]
    cases he : evaluate left' a right' with
    | error err => exact .operands _ hleft hright
    | ok e =>
      rw [evaluate.eq_def] at he
      split at he <;> cases he
      exact .computed a hleft hright
  | assignment | step | comparison => exact .operands _ hleft hright

/-- Also where it fails, folding only computes. -/
theorem partlyFolded_fold (e : Expr) : e.PartlyFolded e.fold.value := by
  induction e using fold.induct with
  | case1 left op right ihleft ihright =>
    rw [fold, Rewritten.andThen]
    cases left.fold.error? with
    | some err => exact .operands op ihleft (.refl right)
    | none =>
      simp only [Rewritten.andThen]
      cases right.fold.error? with
      | some err => exact .operands op ihleft ihright
      | none => exact .combine op ihleft ihright
  | case2 e he =>
    rw [fold_of_ne he]
    exact .refl e

/-! ## Lists of expressions -/

theorem error?_foldAll (es : List Expr) :
    (foldAll es).error? = es.findSome? fun e ↦ e.fold.error? := by
  induction es with
  | nil => rfl
  | cons e es ih =>
    rw [foldAll, Rewritten.error?_andThen, Rewritten.error?_andThen, ih, List.findSome?_cons]
    cases e.fold.error? with
    | none => exact Option.or_none
    | some err => rfl

theorem partlyFolded_foldAll (es : List Expr) :
    List.Forall₂ PartlyFolded es (foldAll es).value := by
  have hrefl : ∀ es : List Expr, List.Forall₂ PartlyFolded es es := fun es ↦
    List.forall₂_same.2 fun e _ ↦ .refl e
  induction es with
  | nil => exact .nil
  | cons e es ih =>
    rw [foldAll, Rewritten.andThen]
    cases e.fold.error? with
    | some err => exact .cons e.partlyFolded_fold (hrefl es)
    | none =>
      simp only [Rewritten.andThen]
      cases (foldAll es).error? with
      | some err => exact .cons e.partlyFolded_fold ih
      | none => exact .cons e.partlyFolded_fold ih

end Expr

end SvLang
