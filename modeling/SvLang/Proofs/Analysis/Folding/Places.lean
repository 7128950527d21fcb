import Mathlib.Data.List.Infix
import SvLang.Proofs.Analysis.Folding

/-!
# Places in an expression

Folding goes down from an operation to its operands and stops at everything else, so what it can
reach is given by a way: at each operation to the left or to the right.  This file is about such
places, and about an expression in which the arithmetic at some of them has been computed.  With
both, the outcome of folding can be said without its recursion, and without the order in which it
computes.

## What is here

* `Expr.at?`, what stands at a place, and `Expr.places`, all places in post-order: what stands to
  the left before what stands to the right, and both before the operation.  `mem_places` says that
  these are all.
* `Expr.computed`: the number that arithmetic on numbers comes to.  Its value is that of the tree,
  and its class is the widest among all numbers in it.
* `Expr.Maximal`: arithmetic on numbers stands at a place, and nowhere above it.
* `Expr.computeWhere`: an expression in which the arithmetic at chosen places is computed, and all
  else is as it was.
-/

set_option autoImplicit false

namespace SvLang

/-- The two operands of an operation. -/
inductive Side where
  | left | right
  deriving DecidableEq, Repr

/-- What is on a side. -/
def Side.of {α : Type} (s : Side) (left right : α) : α :=
  match s with
  | .left => left
  | .right => right

/-- A way down to an operand, from the root on. -/
abbrev Place := List Side

namespace Expr

/-! ## What stands where -/

/-- What stands at a place.  Only the operands of operations have places. -/
def at? (e : Expr) : Place → Option Expr
  | [] => some e
  | s :: p =>
    match e with
    | binary left _ right => (s.of left right).at? p
    | _ => none

/-- The places of an expression in post-order. -/
def places : Expr → List Place
  | binary left _ right =>
    left.places.map (.left :: ·) ++ right.places.map (.right :: ·) ++ [[]]
  | _ => [[]]

@[simp] theorem at?_nil (e : Expr) : e.at? [] = some e := by
  cases e <;> rfl

@[simp] theorem at?_binary_cons (left : Expr) (op : BinaryOp) (right : Expr) (s : Side)
    (p : Place) : (binary left op right).at? (s :: p) = (s.of left right).at? p := rfl

/-- What is no operation has no place but its own. -/
theorem at?_cons_of_ne {e : Expr} (he : ∀ l op r, e ≠ binary l op r) (s : Side) (p : Place) :
    e.at? (s :: p) = none := by
  cases e with
  | binary left op right => exact absurd rfl (he left op right)
  | _ => rfl

theorem cons_mem_places {left right : Expr} {op : BinaryOp} {s : Side} {p : Place} :
    s :: p ∈ (binary left op right).places ↔ p ∈ (s.of left right).places := by
  cases s <;> simp [places, Side.of]

/-- The places in the list are those where something stands. -/
theorem mem_places {e : Expr} {p : Place} : p ∈ e.places ↔ (e.at? p).isSome := by
  induction p generalizing e with
  | nil => cases e <;> simp [places]
  | cons s p ih =>
    cases e with
    | binary left op right => rw [cons_mem_places, at?_binary_cons, ih]
    | _ => simp [places, at?]

/-- What is reached through operations stands at a place. -/
theorem reaches_iff {e n : Expr} : e.Reaches n ↔ ∃ p, e.at? p = some n := by
  constructor
  · intro h
    induction h with
    | refl => exact ⟨[], at?_nil _⟩
    | left op _ ih =>
      obtain ⟨p, hp⟩ := ih
      exact ⟨.left :: p, hp⟩
    | right op _ ih =>
      obtain ⟨p, hp⟩ := ih
      exact ⟨.right :: p, hp⟩
  · rintro ⟨p, hp⟩
    induction p generalizing e with
    | nil =>
      rw [at?_nil] at hp
      cases hp
      exact .refl _
    | cons s p ih =>
      cases e with
      | binary left op right =>
        cases s with
        | left => exact .left op (ih hp)
        | right => exact .right op (ih hp)
      | _ => cases hp

/-! ## Arithmetic on numbers -/

/-- The classes of the numbers that arithmetic computes on, from left to right. -/
def widths : Expr → List Width
  | number w _ => [w]
  | binary left (.arithmetic _) right => left.widths ++ right.widths
  | _ => []

/-- The value of arithmetic on numbers. -/
def value : Expr → Float
  | number _ x => x
  | binary left (.arithmetic a) right => a.apply left.value right.value
  | _ => Binary64.nan

/-- The number that arithmetic on numbers comes to. -/
def computed (e : Expr) : Expr := number (.widest e.widths) e.value

/-- **Arithmetic on numbers is folded to what it comes to.**  One operation gives the wider class of
its two operands, and the whole tree the widest class in it. -/
theorem fold_of_isArithmetic {e : Expr} (h : e.isArithmetic) : e.fold = .done e.computed := by
  induction e using fold.induct with
  | case1 left op right ihleft ihright =>
    cases op with
    | arithmetic a =>
      rw [isArithmetic, Bool.and_eq_true] at h
      have hl := ihleft h.1
      have hr := ihright h.2
      have hcomputed : (binary left (.arithmetic a) right).computed =
          number ((Width.widest left.widths).max (.widest right.widths))
            (a.apply left.value right.value) := by
        rw [computed, widths, value, Width.widest_append]
      rw [fold_binary _ (congrArg Rewritten.error? hl) (congrArg Rewritten.error? hr), hl, hr,
        hcomputed]
      rfl
    | assignment | step | comparison => cases h
  | case2 e he =>
    cases e with
    | number w x =>
      rw [computed, widths, value, Width.widest_singleton]
      rfl
    | binary left op right => exact absurd rfl (he left op right)
    | _ => cases h

/-- Whether an operation stands at a place that is arithmetic on numbers. -/
def computesAt (e : Expr) (p : Place) : Bool :=
  match e.at? p with
  | some (binary left op right) => (binary left op right).isArithmetic
  | _ => false

/-- Arithmetic on numbers stands at the place, and it is not a part of more of it. -/
def Maximal (e : Expr) (p : Place) : Prop :=
  e.computesAt p ∧ ∀ q, q <+: p → e.computesAt q → q = p

instance (e : Expr) : DecidablePred e.Maximal := fun p ↦
  decidable_of_iff (e.computesAt p ∧ ∀ q ∈ p.inits, e.computesAt q → q = p) (by simp [Maximal])

theorem Maximal.mem_places {e : Expr} {p : Place} (h : e.Maximal p) : p ∈ e.places := by
  rw [Expr.mem_places]
  have hp := h.1
  rw [computesAt] at hp
  split at hp
  · rename_i hsome
    rw [hsome]
    rfl
  · cases hp

theorem maximal_nil {left right : Expr} {op : BinaryOp} :
    (binary left op right).Maximal [] ↔ (binary left op right).isArithmetic := by
  simp [Maximal, computesAt]

/-- An operation that is no arithmetic on numbers leaves its operands what is maximal in them. -/
theorem maximal_cons {left right : Expr} {op : BinaryOp}
    (h : (binary left op right).isArithmetic = false) (s : Side) (p : Place) :
    (binary left op right).Maximal (s :: p) ↔ (s.of left right).Maximal p := by
  have hroot : (binary left op right).computesAt [] = false := h
  constructor
  · rintro ⟨hp, habove⟩
    refine ⟨hp, fun q hq hcomputes ↦ ?_⟩
    exact (List.cons.inj (habove (s :: q) (List.cons_prefix_cons.2 ⟨rfl, hq⟩) hcomputes)).2
  · rintro ⟨hp, habove⟩
    refine ⟨hp, fun q hq hcomputes ↦ ?_⟩
    rcases List.prefix_cons_iff.1 hq with rfl | ⟨q', rfl, hq'⟩
    · rw [hroot] at hcomputes
      cases hcomputes
    · rw [habove q' hq' hcomputes]

/-! ## Computing at chosen places -/

/-- The expression with the arithmetic at chosen places computed.  Below such a place nothing is
left to choose. -/
def computeWhere (chosen : Place → Prop) [DecidablePred chosen] : Expr → Expr
  | binary left op right =>
    if chosen [] then (binary left op right).computed
    else
      binary (left.computeWhere fun p ↦ chosen (.left :: p)) op
        (right.computeWhere fun p ↦ chosen (.right :: p))
  | e => if chosen [] then e.computed else e

/-- It only matters which places are chosen. -/
theorem computeWhere_congr {chosen chosen' : Place → Prop} [DecidablePred chosen]
    [DecidablePred chosen'] (h : ∀ p, chosen p ↔ chosen' p) (e : Expr) :
    e.computeWhere chosen = e.computeWhere chosen' := by
  obtain rfl : chosen = chosen' := funext fun p ↦ propext (h p)
  congr

/-- An operation that is not chosen stays, and so do its operands but for what is chosen in
them. -/
theorem computeWhere_binary {chosen : Place → Prop} [DecidablePred chosen] (h : ¬ chosen [])
    (left : Expr) (op : BinaryOp) (right : Expr) :
    (binary left op right).computeWhere chosen =
      binary (left.computeWhere fun p ↦ chosen (.left :: p)) op
        (right.computeWhere fun p ↦ chosen (.right :: p)) := by
  rw [computeWhere, if_neg h]

/-- Without a chosen place, all stays as it is. -/
theorem computeWhere_eq_self {chosen : Place → Prop} [DecidablePred chosen]
    (h : ∀ p, ¬ chosen p) (e : Expr) : e.computeWhere chosen = e := by
  induction e using fold.induct generalizing chosen with
  | case1 left op right ihleft ihright =>
    rw [computeWhere_binary (h []), ihleft fun p ↦ h _, ihright fun p ↦ h _]
  | case2 e he =>
    cases e with
    | binary left op right => exact absurd rfl (he left op right)
    | _ => exact if_neg (h [])

end Expr

end SvLang
