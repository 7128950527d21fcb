import SvLang.Proofs.Grammar.Closing
import SvLang.Proofs.Grammar.Completeness

/-!
# The third part of a loop header

The third part of the header of a `for` loop is an expression.  But in front of the rule for
expressions the grammar asks for a name with a step operator behind it, and takes that for the whole
part: it becomes a step of the name, where an expression would be an operation on it.  Two tokens
decide this, and it is not asked whether the part ends behind them.  So an expression that goes on,
as `i++ + j` does, is refused at its third token, although it may stand in the first part of the
header and everywhere else (`not_parse_increment`).

`parse_increment` is the main statement: for each expression that the grammar reads in front of the
parenthesis, it says what becomes of it as the third part of a loop that holds nothing else.

## What is here

* `SteppedName`: tokens that start with such a step, and `BareLoop`: those around the third part.
* `Rules.forIncrement?_of_expr`: where there is no such step, the third part is the expression.
* `Rules.next_ne_closeParen`: what stands behind the step in a longer expression.
-/

set_option autoImplicit false

namespace SvLang

open SvLang.Parser

/-- The tokens are the name `x` with a step operator behind it, and then `more`. -/
def SteppedName (ts : List Token) (x : String) (op : StepOp) (more : List Token) : Prop :=
  ∃ t u, ts = t :: u :: more ∧ t.terminal = .ofName x ∧ u.terminal = .ofSymbol op.symbol

/-- What stands around the third part of its header in a program that is one loop with nothing
else. -/
structure BareLoop (before : List Token) (close : Token) (behind : List Token) : Prop where
  /-- In front stands `for (;;`. -/
  before : before.map Token.terminal =
    [.ofKeyword .forWord, .ofSymbol .openParen, .ofSymbol .semicolon, .ofSymbol .semicolon]
  /-- Behind stands the parenthesis that closes the header. -/
  close : close.terminal = .ofSymbol .closeParen
  /-- Then there are two braces, and the end of the input. -/
  behind : ∃ body rest, behind = body ++ rest ∧
    body.map Token.terminal = [.ofSymbol .openBrace, .ofSymbol .closeBrace] ∧
    (front rest).kind = .eof

namespace Rules

/-! ## The third part alone -/

section Increment

variable {limit room : Nat} {es : List Token} {close : Token} {e : Expr}

/-- A name with a step operator behind it is taken without a look at what follows. -/
theorem forIncrement?_of_steppedName {R : Rules} {ts more : List Token} {x : String} {op : StepOp}
    (h : SteppedName ts x op more) :
    R.forIncrement? ts = .ok (some (.unary op (some (.identifier ⟨x, none⟩))), more) := by
  obtain ⟨t, u, rfl, ht, hu⟩ := h
  obtain ⟨hkind, htext⟩ := Token.isName_of_terminal ht
  have hop : stepOp? u.kind = some op := by
    rw [Token.kind_of_terminal hu]
    cases op <;> rfl
  have hfront : (front (t :: u :: more)).kind ≠ .symbol .closeParen := by
    show t.kind ≠ _
    rw [hkind]
    exact nofun
  rw [forIncrement?, if_neg hfront, steppedName?, if_pos hkind, hop, htext]
  rfl

/-- An expression that is read starts with a token that starts expressions. -/
theorem startsExpr_of_expr {ts rest : List Token}
    (h : (rules limit room).expr ts = .ok (e, rest)) : (front ts).kind.startsExpr := by
  obtain ⟨used, rfl, t, -, ht, -⟩ := (sound_rules limit room).expr _ _ _ h
  rw [kind_front_append ht.symm rfl]
  exact t.startsExpr_firstKind (by simp) _

/-- **Where no name is stepped**, the third part is the expression that is read in front of the
parenthesis. -/
theorem forIncrement?_of_expr (hclose : close.terminal = .ofSymbol .closeParen)
    (he : (rules limit room).expr (es ++ [close]) = .ok (e, [close]))
    (hes : ¬ ∃ x op more, SteppedName es x op more) (behind : List Token) :
    (rules limit room).forIncrement? (es ++ close :: behind) = .ok (some e, close :: behind) := by
  have hexpr : (rules limit room).expr (es ++ close :: behind) = .ok (e, close :: behind) :=
    (Rules.decided_rules limit room).expr.of_front_eq he rfl
  have hfront : (front (es ++ close :: behind)).kind ≠ .symbol .closeParen := by
    intro h
    have hstarts := startsExpr_of_expr hexpr
    rw [h] at hstarts
    exact absurd hstarts (by decide)
  have hstep : steppedName? (es ++ close :: behind) = none := by
    cases hsome : steppedName? (es ++ close :: behind) with
    | none => rfl
    | some r =>
      obtain ⟨e', rest⟩ := r
      obtain ⟨t, u, op, hts, ht, hu, -⟩ := eq_of_steppedName? hsome
      have hclose := Token.kind_of_terminal hclose
      -- The parenthesis is neither the name nor the operator, so both stand in front of it.
      rcases es with _ | ⟨t, _ | ⟨u, more⟩⟩
      · obtain ⟨rfl, -⟩ := List.cons.inj hts
        cases ht.symm.trans hclose
      · obtain ⟨rfl, -⟩ := List.cons.inj (List.cons.inj hts).2
        have hsymbol := hu.symm.trans hclose
        cases op <;> cases hsymbol
      · cases hts
        exact absurd ⟨t.text, op, more, t, u, rfl, Token.terminal_of_hasText ht rfl,
          Token.terminal_of_kind hu rfl⟩ hes
  rw [forIncrement?, if_neg hfront, hstep]
  show (some <$> (rules limit room).expr) _ = _
  rw [map_eq_pure_bind, bind_apply, hexpr]
  rfl

/-- In an expression that starts with a step of a name and goes on, no parenthesis is closed behind
the step: the expression would end there. -/
theorem next_ne_closeParen (he : (rules limit room).expr (es ++ [close]) = .ok (e, [close]))
    {x : String} {op : StepOp} {t : Token} {more : List Token}
    (hes : SteppedName es x op (t :: more)) : t.kind ≠ .symbol .closeParen := by
  intro ht
  obtain ⟨y, z, rfl, hy, hz⟩ := hes
  cases room with
  | zero => cases he
  | succ room =>
    let step : ExprTree .whole :=
      .whole (.lift rfl (.stepBehind (.lift rfl (.lift rfl (.name x))) op))
    have hleads : (rules limit (room + 1)).expr.Leads [.ofName x, .ofSymbol op.symbol]
        (.symbol .closeParen) (pure step.abstract) :=
      step.leads_expr (Nat.le_add_left 1 room) trivial rfl
    have hstep := hleads [y, z] (t :: (more ++ [close])) (by simp [hy, hz]) ht
    rw [List.cons_append, List.cons_append, List.nil_append] at hstep
    rw [List.cons_append, List.cons_append, List.cons_append, hstep, pure_apply] at he
    simp at he

end Increment

/-! ## The loop around it -/

/-- What follows the third part of a loop that has neither a first nor a second part. -/
def bareEnd (R : Rules) (increment? : Option Expr) : Parser Stmt := do
  let _ ← expect .forClose
  let body ← R.block
  return .forLoop none none increment? body

/-- Behind `for (;;` the third part is read, and what follows it. -/
theorem leads_bareLoop (R : Rules) (k : TokenKind) :
    R.statement.Leads
      [.ofKeyword .forWord, .ofSymbol .openParen, .ofSymbol .semicolon, .ofSymbol .semicolon] k
      (R.forIncrement? >>= R.bareEnd) := by
  have hcondition : R.forCondition?.Leads [] (.symbol .semicolon) (pure none) :=
    (leads_branch_otherwise fun t ht ↦ if_neg (by rw [ht]; exact nofun)).stop
      (leads_conditionEnd none)
  refine (leads_statement rfl).cons ((leads_expect .forOpen rfl _ _).cons ?_)
  refine ((leads_onKind rfl _).bind_pure _).cons ?_
  exact (hcondition.bind_pure _).look (leads_expect .forConditionEnd rfl _ k)

/-- An empty body is read to its end. -/
theorem leads_bareEnd (limit room : Nat) (increment? : Option Expr) (k : TokenKind) :
    ((rules limit room).bareEnd increment?).Leads
      [.ofSymbol .closeParen, .ofSymbol .openBrace, .ofSymbol .closeBrace] k
      (pure (.forLoop none none increment? [])) := by
  have hblock : (rules limit room).block.Leads [.ofSymbol .openBrace, .ofSymbol .closeBrace] k
      (pure []) :=
    leads_block ((StmtTree.braces .nil).readBy limit (Nat.zero_le room) trivial)
  exact (leads_expect .forClose rfl _ _).cons (hblock.bind_pure _)

end Rules

/-! ## Programs -/

section Programs

variable {limit : Nat} {ts rest : List Token}

/-- A statement in front of the end of the input is a program. -/
theorem parseWithin_of_stmt {s : Stmt} (hts : (front ts).kind ≠ .eof)
    (hs : (rules limit limit).stmt ts = .ok (s, rest)) (hrest : (front rest).kind = .eof) :
    parseWithin limit ts = .ok ⟨[s]⟩ := by
  have hround : (rules limit limit).body ts =
      manyUntilFrom (· = .eof) (rules limit limit).stmt (rules limit limit).stmt_shrinks [s] rest :=
    manyUntilFrom_of_ok (by simpa using hts) hs
  refine parseWithin_eq_ok.2 ⟨rest, hround.trans ?_⟩
  rw [manyUntilFrom_eq, if_pos (by simpa using hrest), List.reverse_singleton]

/-- A program is refused if its first statement is. -/
theorem parseWithin_of_stmt_error {e : ParseError} (hts : (front ts).kind ≠ .eof)
    (hs : (rules limit limit).stmt ts = .error e) : parseWithin limit ts = .error e := by
  refine parseWithin_eq_error.2 ?_
  rw [Rules.body, manyUntil, manyUntilFrom_eq, if_neg (by simpa using hts)]
  refine (bind_apply (rules limit limit).stmt _ ts).trans ?_
  rw [hs]

end Programs

/-! ## The loop as a program -/

namespace BareLoop

variable {before es behind : List Token} {close : Token} (h : BareLoop before close behind)
  {ts : List Token} {increment? : Option Expr}

include h

theorem front_ne_eof (ts : List Token) : (front (before ++ ts)).kind ≠ .eof := by
  rw [kind_front_append h.before rfl]
  exact nofun

/-- The statement of the program is the loop. -/
theorem stmt_eq {rest : List Token}
    (hts : (rules maxNesting (maxNesting - 1)).forIncrement? ts = .ok (increment?, rest)) :
    (rules maxNesting maxNesting).stmt (before ++ ts) =
      (rules maxNesting (maxNesting - 1)).bareEnd increment? rest := by
  have hleads := Rules.leads_bareLoop (rules maxNesting (maxNesting - 1)) (front ts).kind
  have hstmt := hleads before ts h.before rfl
  rw [bind_apply, hts] at hstmt
  exact hstmt

/-- What ends at the parenthesis is the third part of the loop. -/
theorem parse_of_ok
    (hes : (rules maxNesting (maxNesting - 1)).forIncrement? (es ++ close :: behind) =
      .ok (increment?, close :: behind)) :
    parse (before ++ (es ++ close :: behind)) = .ok ⟨[.forLoop none none increment? []]⟩ := by
  obtain ⟨body, rest, hbehind, hbody, hrest⟩ := h.behind
  have hend := Rules.leads_bareEnd maxNesting (maxNesting - 1) increment? .eof (close :: body) rest
    (by rw [List.map_cons, h.close, hbody]) hrest
  rw [List.cons_append, ← hbehind] at hend
  exact parseWithin_of_stmt (h.front_ne_eof _) ((h.stmt_eq hes).trans hend) hrest

/-- What ends in front of another token is refused because of that token. -/
theorem parse_of_unclosed {t : Token} {rest : List Token}
    (hts : (rules maxNesting (maxNesting - 1)).forIncrement? ts = .ok (increment?, t :: rest))
    (ht : t.kind ≠ .symbol .closeParen) :
    parse (before ++ ts) = .error ⟨t.span.start, .expected .forClose t.kind⟩ := by
  have hclose : expect .forClose (t :: rest) =
      .error ⟨t.span.start, .expected .forClose t.kind⟩ := if_neg ht
  have hend : (rules maxNesting (maxNesting - 1)).bareEnd increment? (t :: rest) =
      .error ⟨t.span.start, .expected .forClose t.kind⟩ := by
    rw [Rules.bareEnd, bind_apply, hclose]
  exact parseWithin_of_stmt_error (h.front_ne_eof _) ((h.stmt_eq hts).trans hend)

end BareLoop

/-- **The third part of a loop header.**  Let an expression be read from some tokens in front of a
parenthesis, one level of nesting inside a program, and let these tokens be the third part of a loop
that holds nothing else.
* If they are a name and a step operator, the third part is the step of this name.
* If they start with these two and go on, the program is refused because of the third one.
* In all other cases the third part is the expression. -/
theorem parse_increment {before es behind : List Token} {close : Token} {e : Expr}
    (hloop : BareLoop before close behind)
    (he : (rules maxNesting (maxNesting - 1)).expr (es ++ [close]) = .ok (e, [close])) :
    (∀ x op, SteppedName es x op [] → parse (before ++ (es ++ close :: behind)) =
      .ok ⟨[.forLoop none none (some (.unary op (some (.identifier ⟨x, none⟩)))) []]⟩) ∧
    (∀ x op t more, SteppedName es x op (t :: more) → parse (before ++ (es ++ close :: behind)) =
      .error ⟨t.span.start, .expected .forClose t.kind⟩) ∧
    ((¬ ∃ x op more, SteppedName es x op more) →
      parse (before ++ (es ++ close :: behind)) = .ok ⟨[.forLoop none none (some e) []]⟩) := by
  have hstep : ∀ x op more, SteppedName es x op more →
      SteppedName (es ++ close :: behind) x op (more ++ close :: behind) := by
    rintro x op more ⟨t, u, rfl, ht, hu⟩
    exact ⟨t, u, rfl, ht, hu⟩
  refine ⟨fun x op hes ↦ ?_, fun x op t more hes ↦ ?_, fun hes ↦ ?_⟩
  · exact hloop.parse_of_ok (Rules.forIncrement?_of_steppedName (hstep x op [] hes))
  · exact hloop.parse_of_unclosed (Rules.forIncrement?_of_steppedName (hstep x op _ hes))
      (Rules.next_ne_closeParen he hes)
  · exact hloop.parse_of_ok (Rules.forIncrement?_of_expr hloop.close he hes behind)

/-! ## A sum that is refused -/

namespace SumLoop

/-- The tokens of `for(;;`. -/
def before : List Token :=
  [⟨.keyword .forWord, "for", ⟨0, 3⟩⟩, ⟨.symbol .openParen, "(", ⟨3, 4⟩⟩,
    ⟨.symbol .semicolon, ";", ⟨4, 5⟩⟩, ⟨.symbol .semicolon, ";", ⟨5, 6⟩⟩]

/-- The tokens of `i++ + j` behind that. -/
def part : List Token :=
  [⟨.identifier, "i", ⟨6, 7⟩⟩, ⟨.symbol .plusPlus, "++", ⟨7, 9⟩⟩, ⟨.symbol .plus, "+", ⟨10, 11⟩⟩,
    ⟨.identifier, "j", ⟨12, 13⟩⟩]

/-- The parenthesis behind the sum. -/
def close : Token := ⟨.symbol .closeParen, ")", ⟨13, 14⟩⟩

/-- The tokens of `{}` behind the parenthesis, with the end of the input. -/
def behind : List Token :=
  [⟨.symbol .openBrace, "\x7b", ⟨14, 15⟩⟩, ⟨.symbol .closeBrace, "\x7d", ⟨15, 16⟩⟩,
    ⟨.eof, "", ⟨16, 16⟩⟩]

/-- What the sum means. -/
def sum : Expr :=
  .binary (.binary (.identifier ⟨"i", none⟩) (.step .increment) (.unary .increment none))
    (.arithmetic .add) (.identifier ⟨"j", none⟩)

theorem bareLoop : BareLoop before close behind :=
  ⟨rfl, rfl, behind.take 2, behind.drop 2, rfl, rfl, rfl⟩

theorem expr_part :
    (rules maxNesting (maxNesting - 1)).expr (part ++ [close]) = .ok (sum, [close]) := by
  let tree : ExprTree .whole :=
    .whole (.lift rfl (.binary rfl (.stepBehind (.lift rfl (.lift rfl (.name "i"))) .increment)
      (.arithmetic .add) rfl (.lift rfl (.name "j"))))
  have hleads : (rules maxNesting (maxNesting - 1)).expr.Leads tree.terminals
      (.symbol .closeParen) (pure sum) :=
    tree.leads_expr (by decide) ⟨trivial, trivial⟩ rfl
  exact hleads part [close] rfl rfl

end SumLoop

/-- The sum `i++ + j` is refused as the third part of a header because of the `+`. -/
theorem parse_increment_sum :
    BareLoop SumLoop.before SumLoop.close SumLoop.behind ∧
    (rules maxNesting (maxNesting - 1)).expr (SumLoop.part ++ [SumLoop.close]) =
      .ok (SumLoop.sum, [SumLoop.close]) ∧
    parse (SumLoop.before ++ (SumLoop.part ++ SumLoop.close :: SumLoop.behind)) =
      .error ⟨10, .expected .forClose (.symbol .plus)⟩ :=
  ⟨SumLoop.bareLoop, SumLoop.expr_part,
    (parse_increment SumLoop.bareLoop SumLoop.expr_part).2.1 "i" .increment _ _
      ⟨_, _, rfl, rfl, rfl⟩⟩

/-- So an expression other than the step of a name need not be read as the third part of a header,
although it is read in front of a parenthesis. -/
theorem not_parse_increment :
    ¬ ∀ before es close behind e, BareLoop before close behind →
      (rules maxNesting (maxNesting - 1)).expr (es ++ [close]) = .ok (e, [close]) →
      (¬ ∃ x op, SteppedName es x op []) →
      parse (before ++ (es ++ close :: behind)) = .ok ⟨[.forLoop none none (some e) []]⟩ := by
  intro h
  have hok := h _ _ _ _ _ SumLoop.bareLoop SumLoop.expr_part (by
    rintro ⟨x, op, t, u, hpart, -⟩
    simp [SumLoop.part] at hpart)
  have herror : parse (SumLoop.before ++ (SumLoop.part ++ SumLoop.close :: SumLoop.behind)) =
      .error ⟨10, .expected .forClose (.symbol .plus)⟩ := by cbv
  rw [hok] at herror
  cases herror

/-- As the first part of a header the same sum is read. -/
example :
    (parse (SumLoop.before.take 2 ++ SumLoop.part ++ SumLoop.before.drop 2 ++
      SumLoop.close :: SumLoop.behind)).toBool := by
  decide +kernel

end SvLang
