import SvLang.Proofs.Grammar.Counting

/-!
# Procedures and rules made in the same way

A rule of the grammar is made of the rules for what lies one level of nesting deeper, by the
operations on parsers.  A procedure with a counter is its counterpart if it is made of the
procedures for what lies one level deeper by the operations of the same names
(`Procedures.Counterpart`).  This is about how the two are written and not about what they do, so
that what follows from it is proved once for each operation, and holds of any rule that the grammar
may have.
-/

set_option autoImplicit false

namespace SvLang

open SvLang.Parser (kind)

/-- The procedures for what lies one level of nesting deeper, as in `Rules`. -/
structure Procedures where
  expr : Counting Expr
  operand : Counting Expr
  stmt : Counting Stmt
  elseIf : Counting Stmt

/-- Two choices are related if they are made for the same things, and what is chosen is. -/
theorem optionRel_iff {α β : Type} {r : α → β → Prop} {a? : Option α} {b? : Option β} :
    Option.Rel r a? b? ↔
      a?.isSome = b?.isSome ∧ ∀ a b, a? = some a → b? = some b → r a b := by
  constructor
  · rintro (⟨h⟩ | -)
    · refine ⟨rfl, ?_⟩
      rintro _ _ ⟨⟩ ⟨⟩
      exact h
    · exact ⟨rfl, fun _ _ h ↦ by cases h⟩
  · rintro ⟨hsome, h⟩
    cases a? with
    | none => cases b? with
      | none => exact .none
      | some b => cases hsome
    | some a => cases b? with
      | none => cases hsome
      | some b => exact .some (h a b rfl rfl)

namespace Procedures

open SvLang.Counting

/-- The procedure is made from those of `C` as the parser is made from the rules of `R`: by the same
operations, from counterparts.  A parser that leaves the counter alone is its own counterpart. -/
inductive Counterpart (C : Procedures) (R : Rules) :
    ∀ {α : Type}, Counting α → Parser α → Prop where
  | expr : Counterpart C R C.expr R.expr
  | operand : Counterpart C R C.operand R.operand
  | stmt : Counterpart C R C.stmt R.stmt
  | elseIf : Counterpart C R C.elseIf R.elseIf
  | parser {α : Type} (p : Parser α) : Counterpart C R p.counting p
  | bind {α β : Type} {c : Counting α} {p : Parser α} {f : α → Counting β} {g : α → Parser β}
      (h : Counterpart C R c p) (hf : ∀ a, Counterpart C R (f a) (g a)) :
      Counterpart C R (c >>= f) (p >>= g)
  /-- If `read?` can tell from the tokens what there is to be read, nothing else is tried. -/
  | lookAhead {α : Type} {c c' : Counting α} {p p' : Parser α}
      (read? : List Token → Option (α × List Token)) (h : Counterpart C R c p)
      (hc : ∀ d ts, c' d ts = match read? ts with
        | some r => some ⟨.ok r, d, d⟩
        | none => c d ts)
      (hp : ∀ ts, p' ts = match read? ts with
        | some r => .ok r
        | none => p ts) :
      Counterpart C R c' p'
  /-- The same tokens are taken by both, and what follows them is a counterpart. -/
  | branch {α : Type} {rule? : Token → Option (Counting α)} {rule'? : Token → Option (Parser α)}
      {otherwise : Counting α} {otherwise' : Parser α}
      (hsome : ∀ t, (rule? t).isSome = (rule'? t).isSome)
      (hr : ∀ t rule rule', rule? t = some rule → rule'? t = some rule' →
        Counterpart C R rule rule')
      (ho : Counterpart C R otherwise otherwise') :
      Counterpart C R (branch rule? otherwise) (Parser.branch rule'? otherwise')
  | manyUntil {α : Type} {stop : TokenKind → Bool} {item : Counting α} {item' : Parser α}
      {hi : item'.Shrinks} (h : Counterpart C R item item') :
      Counterpart C R (manyUntil stop item) (Parser.manyUntil stop item' hi)
  | extend {α : Type} {more? : Token → Option (α → Counting α)}
      {more'? : Token → Option (α → Parser α)}
      {hm : ∀ t rule, more'? t = some rule → ∀ a, (rule a).Keeps}
      (hsome : ∀ t, (more? t).isSome = (more'? t).isSome)
      (hr : ∀ t rule rule', more? t = some rule → more'? t = some rule' →
        ∀ a, Counterpart C R (rule a) (rule' a))
      (a : α) :
      Counterpart C R (extend more? a) (Parser.extend more'? hm a)

/-! ## Operations made of others -/

section Operations

variable {C : Procedures} {R : Rules} {α β : Type}

theorem Counterpart.pure (a : α) : Counterpart C R (Pure.pure a) (Pure.pure a) :=
  .parser (Pure.pure a)

theorem Counterpart.map {c : Counting α} {p : Parser α} (h : Counterpart C R c p) (f : α → β) :
    Counterpart C R (f <$> c) (f <$> p) :=
  h.bind fun a ↦ .pure (f a)

theorem Counterpart.choice {rule? : Token → Option (Counting α)}
    {rule'? : Token → Option (Parser α)} {otherwise : Counting α} {otherwise' : Parser α}
    (hr : ∀ t, Option.Rel (Counterpart C R) (rule? t) (rule'? t))
    (ho : Counterpart C R otherwise otherwise') :
    Counterpart C R (Counting.branch rule? otherwise) (Parser.branch rule'? otherwise') :=
  .branch (fun t ↦ (optionRel_iff.1 (hr t)).1) (fun t ↦ (optionRel_iff.1 (hr t)).2) ho

theorem Counterpart.extension {more? : Token → Option (α → Counting α)}
    {more'? : Token → Option (α → Parser α)}
    {hm : ∀ t rule, more'? t = some rule → ∀ a, (rule a).Keeps}
    (hr : ∀ t, Option.Rel (fun rule rule' ↦ ∀ a, Counterpart C R (rule a) (rule' a)) (more? t)
      (more'? t)) (a : α) :
    Counterpart C R (Counting.extend more? a) (Parser.extend more'? hm a) :=
  .extend (fun t ↦ (optionRel_iff.1 (hr t)).1) (fun t ↦ (optionRel_iff.1 (hr t)).2) a

theorem Counterpart.onKind {k : TokenKind} {rule otherwise : Counting α}
    {rule' otherwise' : Parser α} (hr : Counterpart C R rule rule')
    (ho : Counterpart C R otherwise otherwise') :
    Counterpart C R (Counting.onKind k rule otherwise) (Parser.onKind k rule' otherwise') := by
  refine .choice (fun t ↦ ?_) ho
  split
  · exact .some hr
  · exact .none

theorem Counterpart.manyAfter {lead : TokenKind} {item : Counting α} {item' : Parser α}
    {hi : item'.Keeps} (h : Counterpart C R item item') (done : List α) :
    Counterpart C R (Counting.manyAfter lead item done) (Parser.manyAfter lead item' hi done) := by
  refine .bind (.extension (fun t ↦ ?_) done) fun items ↦ .pure _
  rw [another?, Parser.another?]
  split
  · exact .some fun done ↦ h.map _
  · exact .none

theorem Counterpart.listUntil {close : TokenKind} {item : Counting α} {item' : Parser α}
    {hi : item'.Keeps} (h : Counterpart C R item item') :
    Counterpart C R (Counting.listUntil close item) (Parser.listUntil close item' hi) := by
  refine .bind (.parser kind) fun k ↦ ?_
  split
  · exact .pure _
  · exact h.bind fun a ↦ h.manyAfter _

end Operations

end Procedures

end SvLang
