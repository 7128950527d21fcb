import SvLang.Proofs.Grammar.Counting.Procedures

/-!
# The procedures do what the rules do

With the counter at `d`, a procedure of the grammar does what its counterpart does, leaves the
counter at `d`, and keeps it within the limit, if the four procedures one level deeper do
(`Procedures.Track`).  Each operation hands this on, and what the operations make of these four is
all there is (`Track.counterpart`).  So the procedures at the counter `d` do what the rules do that
have `limit - d` levels left (`track_procedures`).
-/

set_option autoImplicit false

namespace SvLang

open SvLang.Counting

namespace Procedures

/-- The procedures for what lies one level deeper do what the rules do. -/
structure Track (limit d : Nat) (C : Procedures) (R : Rules) : Prop where
  expr : Tracks limit d C.expr R.expr
  operand : Tracks limit d C.operand R.operand
  stmt : Tracks limit d C.stmt R.stmt
  elseIf : Tracks limit d C.elseIf R.elseIf

variable {limit d fuel : Nat} {C : Procedures} {R : Rules}

/-- A procedure does what its counterpart does. -/
theorem Track.counterpart {α : Type} {c : Counting α} {p : Parser α} (h : Track limit d C R)
    (hd : d ≤ limit) (hcp : Counterpart C R c p) : Tracks limit d c p := by
  induction hcp with
  | expr => exact h.expr
  | operand => exact h.operand
  | stmt => exact h.stmt
  | elseIf => exact h.elseIf
  | parser p => exact tracks_counting hd p
  | bind _ _ ih ihf => exact ih.bind ihf
  | lookAhead read? _ hc hp ih =>
    intro ts
    rw [TracksAt, hc, hp]
    cases read? ts with
    | some r => exact ⟨d, hd, rfl⟩
    | none => exact ih ts
  | branch hsome _ _ ih iho => exact .branch (fun t ↦ optionRel_iff.2 ⟨hsome t, ih t⟩) iho
  | manyUntil _ ih => exact ih.manyUntil hd
  | extend hsome _ a ih => exact .extend hd (fun t ↦ optionRel_iff.2 ⟨hsome t, ih t⟩) a

/-! ## Level by level -/

/-- At the limit the procedures refuse whatever they are called for. -/
theorem track_outer_limit (C : Procedures) :
    Track limit limit (C.outer limit) (.exhausted limit) where
  expr := tracks_nested_limit _
  operand := tracks_nested_limit _
  stmt := tracks_nested_limit _
  elseIf := tracks_nested_limit _

/-- Below the limit they run with the counter one higher. -/
theorem Track.outer (h : Track limit (d + 1) C R) (hlt : d < limit) :
    Track limit d (C.outer limit) R.outer where
  expr := (h.counterpart hlt .comparison).nested hlt
  operand := (h.counterpart hlt .primary).nested hlt
  stmt := (h.counterpart hlt .statement).nested hlt
  elseIf := (h.counterpart hlt .ifStatement).nested hlt

/-- With the counter at `d`, the procedures do what the rules do that have `limit - d` levels
left. -/
theorem track_procedures (hd : d ≤ limit) (hfuel : limit - d < fuel) :
    Track limit d (procedures limit fuel) (rules limit (limit - d)) := by
  induction fuel generalizing d with
  | zero => exact absurd hfuel (Nat.not_lt_zero _)
  | succ fuel ih =>
    obtain rfl | hlt := Nat.eq_or_lt_of_le hd
    · rw [Nat.sub_self]
      exact track_outer_limit _
    · have hroom : limit - d = limit - (d + 1) + 1 := by omega
      rw [hroom]
      exact (ih hlt (by omega)).outer hlt

end Procedures

end SvLang
