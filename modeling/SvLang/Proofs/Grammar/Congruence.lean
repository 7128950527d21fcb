import SvLang.Proofs.Grammar.Tree

/-!
# What holds all through the grammar

Many facts about the grammar compare what two parsers do, or say something of one, and are handed on
by every operation that the rules are made of.  `Parser.Congruence Rel` says this of a relation
between parsers, one clause for each operation.  Such a relation then holds between each rule of the
grammar over `R` and the same rule over `S` as soon as it holds between the four rules of `R` and of
`S` for what lies one level deeper (`Rules.Related`).

The rules are gone through here once.  What is left to do for a particular relation are its clauses
and the four rules at the limit of nesting.

A relation that is about unexpected tokens does not hold of `unexpected` itself, but only of the two
places that fall back on it: a primary expression and the `if` behind an `else`.
`Parser.Compositional` is what remains without that clause, and for such a relation the two places
are assumptions of the rules around them.

A fact about single parsers is a relation that looks at its first argument only.  A fact about two
lists that the grammar cannot tell apart is a relation as well, because every choice goes by what
the grammar sees of a token (`ByTerminal`).
-/

set_option autoImplicit false

namespace SvLang

open SvLang.Parser

/-! ## Choices that go by terminals -/

theorem Token.kind_eq_of_terminal {t u : Token} (h : t.terminal = u.terminal) : t.kind = u.kind :=
  congrArg Terminal.kind h

theorem Token.text_eq_of_terminal {t u : Token} (h : t.terminal = u.terminal)
    (ht : t.kind.hasText) : t.text = u.text := by
  have htext : t.terminal.text = u.terminal.text := congrArg Terminal.text h
  simpa only [terminal, ← kind_eq_of_terminal h, ht, if_true] using htext

/-- What is chosen for a token goes by what the grammar sees of it. -/
def ByTerminal {β : Type} (f : Token → β) : Prop :=
  ∀ t u : Token, t.terminal = u.terminal → f t = f u

namespace ByTerminal

variable {β : Type}

theorem of_kind (f : TokenKind → β) : ByTerminal fun t ↦ f t.kind :=
  fun _ _ h ↦ congrArg f (Token.kind_eq_of_terminal h)

/-- A choice that is made for names alone may look at the name. -/
theorem of_name (f : String → β) (otherwise : β) :
    ByTerminal fun t ↦ if t.kind = .identifier then f t.text else otherwise := by
  intro t u h
  have hkind := Token.kind_eq_of_terminal h
  by_cases hname : t.kind = .identifier
  · have htext := Token.text_eq_of_terminal h (by rw [hname]; rfl)
    simp only [← hkind, htext]
  · simp only [← hkind, if_neg hname]

end ByTerminal

/-! ## Relations that the operations keep -/

/-- The relation is handed on by the operations that the rules of the grammar are made of.  No
choice takes a token that ends the input, no loop goes on in front of one, and both go by what the
grammar sees of a token. -/
structure Parser.Compositional (Rel : ∀ α : Type, Parser α → Parser α → Prop) : Prop where
  pure {α : Type} (a : α) : Rel α (pure a) (pure a)
  bind {α β : Type} {p q : Parser α} {f g : α → Parser β} (h : Rel α p q)
    (hf : ∀ a, Rel β (f a) (g a)) : Rel β (p >>= f) (q >>= g)
  kind : Rel TokenKind kind kind
  /-- A token that has to stand there; its text is dropped. -/
  expect {α : Type} (place : Landmark) {p q : Parser α} (h : Rel α p q) :
    Rel α (expect place >>= fun _ ↦ p) (expect place >>= fun _ ↦ q)
  /-- A name that has to stand there. -/
  expectName {α : Type} {f g : String → Parser α} (h : ∀ x, Rel α (f x) (g x)) :
    Rel α (Parser.expect .name >>= f) (Parser.expect .name >>= g)
  missingSemicolon (name : String) :
    Rel Unit (fail (.missingSemicolon name)) (fail (.missingSemicolon name))
  malformedParameter : Rel Identifier Rules.malformedParameter Rules.malformedParameter
  malformedCondition : Rel (Option Expr) Rules.malformedCondition Rules.malformedCondition
  branch {α : Type} {rule? rule'? : Token → Option (Parser α)} {otherwise otherwise' : Parser α}
    (heof : ∀ t, t.kind = .eof → rule? t = none) (hterminal : ByTerminal rule?)
    (h : ∀ t, Option.Rel (Rel α) (rule? t) (rule'? t)) (ho : Rel α otherwise otherwise') :
    Rel α (branch rule? otherwise) (branch rule'? otherwise')
  manyUntil {α : Type} {stop : TokenKind → Bool} {item item' : Parser α} {hi : item.Shrinks}
    {hi' : item'.Shrinks} (hstop : stop .eof) (h : Rel α item item') :
    Rel (List α) (manyUntil stop item hi) (manyUntil stop item' hi')
  extend {α : Type} {more? more'? : Token → Option (α → Parser α)}
    {hm : ∀ t rule, more? t = some rule → ∀ a, (rule a).Keeps}
    {hm' : ∀ t rule, more'? t = some rule → ∀ a, (rule a).Keeps}
    (heof : ∀ t, t.kind = .eof → more? t = none) (hterminal : ByTerminal more?)
    (h : ∀ t, Option.Rel (fun r r' ↦ ∀ a, Rel α (r a) (r' a)) (more? t) (more'? t)) (a : α) :
    Rel α (extend more? hm a) (extend more'? hm' a)
  /-- The third part of a loop header, the one place with a look at a second token. -/
  forIncrement? {R S : Rules} (h : Rel Expr R.expr S.expr) :
    Rel (Option Expr) R.forIncrement? S.forIncrement?

/-- The relation also holds where a token is unexpected. -/
structure Parser.Congruence (Rel : ∀ α : Type, Parser α → Parser α → Prop) : Prop
    extends Compositional Rel where
  unexpected {α : Type} : Rel α unexpected unexpected

/-- The relation holds between the rules of `R` and of `S` for what lies one level deeper, but
perhaps not for the `if` behind an `else`. -/
structure Rules.Inner (Rel : ∀ α : Type, Parser α → Parser α → Prop) (R S : Rules) : Prop where
  expr : Rel Expr R.expr S.expr
  operand : Rel Expr R.operand S.operand
  stmt : Rel Stmt R.stmt S.stmt

/-- The relation holds between the rules of `R` and of `S` for what lies one level deeper. -/
structure Rules.Related (Rel : ∀ α : Type, Parser α → Parser α → Prop) (R S : Rules) : Prop where
  expr : Rel Expr R.expr S.expr
  operand : Rel Expr R.operand S.operand
  stmt : Rel Stmt R.stmt S.stmt
  elseIf : Rel Stmt R.elseIf S.elseIf

namespace Parser.Compositional

variable {Rel : ∀ α : Type, Parser α → Parser α → Prop} (hRel : Compositional Rel) {α β : Type}

include hRel

theorem map {p q : Parser α} (h : Rel α p q) (f : α → β) : Rel β (f <$> p) (f <$> q) := by
  rw [map_eq_pure_bind, map_eq_pure_bind]
  exact hRel.bind h fun _ ↦ hRel.pure _

theorem onKind {k : TokenKind} (hk : k ≠ .eof) {rule rule' otherwise otherwise' : Parser α}
    (h : Rel α rule rule') (ho : Rel α otherwise otherwise') :
    Rel α (onKind k rule otherwise) (onKind k rule' otherwise') := by
  refine hRel.branch (fun t ht ↦ if_neg (by rw [ht]; exact hk.symm))
    (.of_kind fun l ↦ if l = k then some rule else none) (fun t ↦ ?_) ho
  split
  · exact .some h
  · exact .none

theorem manyAfter {lead : TokenKind} (hlead : lead ≠ .eof) {item item' : Parser α}
    {hi : item.Keeps} {hi' : item'.Keeps} (h : Rel α item item') (done : List α) :
    Rel (List α) (manyAfter lead item hi done) (manyAfter lead item' hi' done) := by
  refine hRel.bind (hRel.extend ?_ ?_ ?_ done) fun items ↦ hRel.pure _
  · exact fun t ht ↦ if_neg (by rw [ht]; exact hlead.symm)
  · exact .of_kind fun l ↦ if l = lead then some fun done ↦ (· :: done) <$> item else none
  · intro t
    rw [another?, another?]
    split
    · exact .some fun done ↦ hRel.map h _
    · exact .none

theorem listUntil {close : TokenKind} {item item' : Parser α} {hi : item.Keeps}
    {hi' : item'.Keeps} (h : Rel α item item') :
    Rel (List α) (listUntil close item hi) (listUntil close item' hi') := by
  refine hRel.bind hRel.kind fun k ↦ ?_
  split
  · exact hRel.pure _
  · exact hRel.bind h fun a ↦ hRel.manyAfter (by decide) h _

/-- The rules by which operators extend an expression go by their operands. -/
theorem operation? (op? : TokenKind → Option BinaryOp) {operand operand' : Parser Expr}
    (h : Rel Expr operand operand') (t : Token) :
    Option.Rel (fun rule rule' ↦ ∀ left, Rel Expr (rule left) (rule' left))
      (Rules.operation? op? operand t) (Rules.operation? op? operand' t) := by
  rw [Rules.operation?, Rules.operation?]
  cases op? t.kind with
  | none => exact .none
  | some op =>
    refine .some fun left ↦ ?_
    cases op with
    | step op => exact hRel.pure _
    | arithmetic | assignment | comparison => exact hRel.map h _

theorem tier {op? : TokenKind → Option BinaryOp} (heof : op? .eof = none)
    {operand operand' : Parser Expr} {ho : operand.Shrinks} {ho' : operand'.Shrinks}
    (h : Rel Expr operand operand') :
    Rel Expr (Rules.tier op? operand ho) (Rules.tier op? operand' ho') := by
  refine hRel.bind h fun first ↦
    hRel.extend (fun t ht ↦ ?_) (fun t u htu ↦ ?_) (hRel.operation? op? h) first
  · rw [Rules.operation?, ht, heof]
    rfl
  · rw [Rules.operation?, Rules.operation?, Token.kind_eq_of_terminal htu]

end Parser.Compositional

/-! ## The rules -/

namespace Rules

/-- Wherever the rule for a primary expression looks at a text, the grammar sees it. -/
theorem byTerminal_primaryRule? (R : Rules) : ByTerminal R.primaryRule? := by
  intro t u h
  have htext := Token.text_eq_of_terminal h
  rw [Rules.primaryRule?, Rules.primaryRule?, ← Token.kind_eq_of_terminal h]
  cases hk : t.kind with
  | identifier | number | text => rw [htext (by rw [hk]; rfl)]
  | symbol s => cases s <;> rfl
  | keyword w => cases w <;> rfl
  | typeName | eof => rfl

end Rules

namespace Rules.Inner

variable {Rel : ∀ α : Type, Parser α → Parser α → Prop} {R S : Rules} (h : Inner Rel R S)
  (hRel : Compositional Rel)

include h hRel

/-! ## Expressions -/

section Expressions

variable (hexpr : Rel Expr R.expr S.expr)

omit h

include hexpr

theorem callArguments (callee : Identifier) :
    Rel Expr (R.callArguments callee) (S.callArguments callee) :=
  hRel.bind (hRel.listUntil hexpr) fun _ ↦ hRel.expect _ (hRel.pure _)

theorem nameOrCall (callee : Identifier) : Rel Expr (R.nameOrCall callee) (S.nameOrCall callee) :=
  hRel.onKind (by decide) (callArguments hRel hexpr callee) (hRel.pure _)

theorem group : Rel Expr R.group S.group :=
  hRel.bind hexpr fun _ ↦ hRel.expect _ (hRel.pure _)

theorem returned : Rel Expr R.returned S.returned := by
  refine hRel.bind hRel.kind fun k ↦ ?_
  split
  · exact hRel.pure _
  · exact hRel.bind hexpr fun _ ↦ hRel.pure _

theorem primaryRule? (hoperand : Rel Expr R.operand S.operand) (t : Token) :
    Option.Rel (Rel Expr) (R.primaryRule? t) (S.primaryRule? t) := by
  rw [Rules.primaryRule?, Rules.primaryRule?]
  split
  · exact .some (nameOrCall hRel hexpr _)
  · cases Decimal.readFloat? t.text.toList with
    | none => exact .none
    | some x => exact .some (hRel.pure _)
  · exact .some (hRel.pure _)
  · exact .some (hRel.map hoperand _)
  · exact .some (hRel.map hoperand _)
  · exact .some (group hRel hexpr)
  · exact .some (returned hRel hexpr)
  · exact .none

end Expressions

section Tiers

variable (hprimary : Rel Expr R.primary S.primary)

omit h

include hprimary

theorem multiplicative : Rel Expr R.multiplicative S.multiplicative := hRel.tier rfl hprimary

theorem additive : Rel Expr R.additive S.additive := hRel.tier rfl (multiplicative hRel hprimary)

theorem comparison : Rel Expr R.comparison S.comparison :=
  hRel.tier rfl (additive hRel hprimary)

end Tiers

/-! ## Blocks and declarations -/

theorem blockBody : Rel (List Stmt) R.blockBody S.blockBody :=
  hRel.bind (hRel.manyUntil (by decide) h.stmt) fun _ ↦ hRel.expect _ (hRel.pure _)

theorem block : Rel (List Stmt) R.block S.block := hRel.expect _ (h.blockBody hRel)

omit h in
theorem declarationEnd (name : String) :
    Rel Unit (Rules.declarationEnd name) (Rules.declarationEnd name) :=
  hRel.onKind (by decide) (hRel.pure _) (hRel.missingSemicolon name)

theorem declaration (type? : Option TypeName) :
    Rel Stmt (R.declaration type?) (S.declaration type?) := by
  refine hRel.expectName fun name ↦ hRel.onKind (by decide) ?_ (hRel.onKind (by decide) ?_ ?_)
  · exact hRel.bind h.expr fun _ ↦ hRel.bind (declarationEnd hRel name) fun _ ↦ hRel.pure _
  · refine hRel.expect _ (hRel.expect _ (hRel.expect _ (hRel.bind (hRel.listUntil h.expr) ?_)))
    exact fun _ ↦ hRel.expect _ (hRel.bind (declarationEnd hRel name) fun _ ↦ hRel.pure _)
  · exact hRel.bind (declarationEnd hRel name) fun _ ↦ hRel.pure _

/-! ## Functions, conditions and loops -/

omit h in
theorem parameter : Rel Identifier Rules.parameter Rules.parameter := by
  have hname : ∀ type, Rel Identifier (parameterName type) (parameterName type) := by
    refine fun type ↦ hRel.branch (fun t ht ↦ if_neg (by rw [ht]; decide))
      (.of_name (fun x ↦ some (pure (⟨x, some type⟩ : Identifier))) none) (fun t ↦ ?_)
      hRel.malformedParameter
    split
    · exact .some (hRel.pure _)
    · exact .none
  refine hRel.branch (fun t ht ↦ by rw [ht]; rfl)
    (.of_kind fun k ↦ k.typeName?.map parameterName) (fun t ↦ ?_) hRel.malformedParameter
  cases t.kind.typeName? with
  | none => exact .none
  | some type => exact .some (hname type)

theorem function : Rel Stmt R.function S.function := by
  refine hRel.expectName fun name ↦ hRel.expect _ (hRel.bind (hRel.listUntil (parameter hRel)) ?_)
  exact fun _ ↦ hRel.expect _ (hRel.bind (h.block hRel) fun _ ↦ hRel.pure _)

theorem condition (place : Landmark) : Rel Expr (R.condition place) (S.condition place) :=
  hRel.expect _ (hRel.bind h.expr fun _ ↦ hRel.expect _ (hRel.pure _))

theorem whileLoop : Rel Stmt R.whileLoop S.whileLoop :=
  hRel.bind (h.condition hRel _) fun _ ↦ hRel.bind (h.block hRel) fun _ ↦ hRel.pure _

theorem elseBranch (helse : Rel Stmt R.elseIf S.elseIf) :
    Rel (List Stmt) R.elseBranch S.elseBranch := by
  refine hRel.bind hRel.kind fun k ↦ ?_
  split
  · exact hRel.bind helse fun _ ↦ hRel.pure _
  · exact h.block hRel

theorem ifElse (helse : Rel (List Stmt) R.elseBranch S.elseBranch) :
    Rel Stmt R.ifElse S.ifElse := by
  refine hRel.bind (h.condition hRel _) fun _ ↦ hRel.bind (h.block hRel) fun _ ↦ hRel.bind ?_ ?_
  · exact hRel.onKind (by decide) (hRel.map helse _) (hRel.pure _)
  · exact fun _ ↦ hRel.pure _

/-! ## `for` loops -/

theorem forInitializer : Rel Stmt R.forInitializer S.forInitializer := by
  refine hRel.bind hRel.kind fun k ↦ ?_
  split
  · exact h.stmt
  · exact h.stmt
  · exact hRel.bind h.expr fun _ ↦ hRel.expect _ (hRel.pure _)

theorem forInitializer? : Rel (Option Stmt) R.forInitializer? S.forInitializer? :=
  hRel.onKind (by decide) (hRel.pure _) (hRel.map (h.forInitializer hRel) _)

omit h in
theorem conditionEnd (condition? : Option Expr) :
    Rel (Option Expr) (Rules.conditionEnd condition?) (Rules.conditionEnd condition?) := by
  refine hRel.bind hRel.kind fun k ↦ ?_
  split
  · exact hRel.pure _
  · exact hRel.malformedCondition

omit h in
theorem forCondition? (hprimary : Rel Expr R.primary S.primary) :
    Rel (Option Expr) R.forCondition? S.forCondition? := by
  have hcomparison : ∀ name, Rel (Option Expr) (R.forComparison name) (S.forComparison name) := by
    refine fun name ↦ hRel.branch (fun t ht ↦ by rw [ht]; rfl)
      (.of_kind fun k ↦ (loopComparison? k).map (R.forBound name)) (fun t ↦ ?_)
      (conditionEnd hRel _)
    cases loopComparison? t.kind with
    | none => exact .none
    | some op => exact .some (hRel.map (additive hRel hprimary) _)
  refine hRel.branch (fun t ht ↦ if_neg (by rw [ht]; decide))
    (.of_name (fun x ↦ some (R.forComparison ⟨x, none⟩)) none) (fun t ↦ ?_) (conditionEnd hRel _)
  split
  · exact .some (hcomparison _)
  · exact .none

theorem forLoop (hprimary : Rel Expr R.primary S.primary) : Rel Stmt R.forLoop S.forLoop := by
  refine hRel.expect _ (hRel.bind (h.forInitializer? hRel) fun _ ↦ ?_)
  refine hRel.bind (forCondition? hRel hprimary) fun _ ↦ hRel.expect _ ?_
  refine hRel.bind (hRel.forIncrement? h.expr) fun _ ↦ hRel.expect _ ?_
  exact hRel.bind (h.block hRel) fun _ ↦ hRel.pure _

/-! ## `switch` -/

theorem caseBody : Rel (List Stmt) R.caseBody S.caseBody :=
  hRel.bind (hRel.manyUntil (by decide) h.stmt) fun _ ↦ hRel.expect _ (hRel.expect _ (hRel.pure _))

theorem caseClause : Rel Case R.caseClause S.caseClause :=
  hRel.bind h.expr fun _ ↦ hRel.expect _ (hRel.bind (h.caseBody hRel) fun _ ↦ hRel.pure _)

theorem defaultClause? : Rel (Option (List Stmt)) R.defaultClause? S.defaultClause? :=
  hRel.onKind (by decide) (hRel.map (hRel.expect _ (h.caseBody hRel)) _) (hRel.pure _)

theorem switch : Rel Stmt R.switch S.switch := by
  refine hRel.bind (h.condition hRel _) fun _ ↦ hRel.expect _ ?_
  refine hRel.bind (hRel.manyAfter (by decide) (h.caseClause hRel) _) fun _ ↦ ?_
  exact hRel.bind (h.defaultClause? hRel) fun _ ↦ hRel.expect _ (hRel.pure _)

/-! ## Any statement -/

omit h in
theorem exprStatement (hexpr : Rel Expr R.expr S.expr) :
    Rel Stmt R.exprStatement S.exprStatement :=
  hRel.bind hexpr fun _ ↦ hRel.onKind (by decide) (hRel.pure _) (hRel.pure _)

theorem statementRule? (hprimary : Rel Expr R.primary S.primary)
    (helse : Rel (List Stmt) R.elseBranch S.elseBranch) (t : Token) :
    Option.Rel (Rel Stmt) (R.statementRule? t) (S.statementRule? t) := by
  rw [Rules.statementRule?, Rules.statementRule?]
  split
  · exact .some (h.declaration hRel _)
  · exact .some (h.declaration hRel _)
  · exact .some (hRel.pure _)
  · exact .some (h.function hRel)
  · exact .some (h.whileLoop hRel)
  · exact .some (h.ifElse hRel helse)
  · exact .some (h.forLoop hRel hprimary)
  · exact .some (h.switch hRel)
  · exact .some (hRel.map (h.blockBody hRel) _)
  · exact .none

theorem statement (hprimary : Rel Expr R.primary S.primary)
    (helse : Rel (List Stmt) R.elseBranch S.elseBranch) : Rel Stmt R.statement S.statement := by
  refine hRel.branch (fun t ht ↦ ?_) (fun t u htu ↦ ?_) (h.statementRule? hRel hprimary helse)
    (exprStatement hRel h.expr)
  · rw [Rules.statementRule?, ht]
  · rw [Rules.statementRule?, Rules.statementRule?, Token.kind_eq_of_terminal htu]

end Rules.Inner

/-! ## Level by level -/

namespace Rules.Related

variable {Rel : ∀ α : Type, Parser α → Parser α → Prop} {R S : Rules} (h : Related Rel R S)
  (hRel : Congruence Rel)

include h

theorem inner : Inner Rel R S := ⟨h.expr, h.operand, h.stmt⟩

include hRel

theorem primary : Rel Expr R.primary S.primary := by
  refine hRel.branch (fun t ht ↦ ?_) (byTerminal_primaryRule? R)
    (Inner.primaryRule? hRel.toCompositional h.expr h.operand) hRel.unexpected
  rw [Rules.primaryRule?, ht]

/-- The relation is handed on to the rules one level further out. -/
theorem outer : Related Rel R.outer S.outer := by
  have hprimary := h.primary hRel
  have helse := h.inner.elseBranch hRel.toCompositional h.elseIf
  constructor
  case expr => exact Inner.comparison hRel.toCompositional hprimary
  case operand => exact hprimary
  case stmt => exact h.inner.statement hRel.toCompositional hprimary helse
  case elseIf =>
    exact hRel.onKind (by decide) (h.inner.ifElse hRel.toCompositional helse) hRel.unexpected

end Rules.Related

/-! ## Whole programs -/

/-- The statements of a program, up to the end of the input. -/
def Rules.body (R : Rules) : Parser (List Stmt) := manyUntil (· = .eof) R.stmt R.stmt_shrinks

theorem parseWithin_eq_ok {limit : Nat} {ts : List Token} {p : Program} :
    parseWithin limit ts = .ok p ↔
      ∃ rest, (rules limit limit).body ts = .ok (p.body, rest) := by
  obtain ⟨body⟩ := p
  change ((rules limit limit).body ts).map _ = _ ↔ _
  cases (rules limit limit).body ts with
  | error e => simp [Except.map]
  | ok r => simp [Except.map, Prod.ext_iff]

theorem parseWithin_eq_error {limit : Nat} {ts : List Token} {e : ParseError} :
    parseWithin limit ts = .error e ↔ (rules limit limit).body ts = .error e := by
  change ((rules limit limit).body ts).map _ = _ ↔ _
  cases (rules limit limit).body ts <;> simp [Except.map]

theorem Rules.Inner.body {Rel : ∀ α : Type, Parser α → Parser α → Prop} {R S : Rules}
    (h : Inner Rel R S) (hRel : Compositional Rel) : Rel (List Stmt) R.body S.body :=
  hRel.manyUntil (by decide) h.stmt

theorem Rules.Related.body {Rel : ∀ α : Type, Parser α → Parser α → Prop} {R S : Rules}
    (h : Related Rel R S) (hRel : Congruence Rel) : Rel (List Stmt) R.body S.body :=
  h.inner.body hRel.toCompositional

end SvLang
