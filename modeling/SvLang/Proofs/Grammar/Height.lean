import SvLang.Proofs.Grammar.Completeness
import SvLang.Proofs.Grammar.Soundness

/-!
# How high programs are

The passes behind the parser run through a program from its root down, so they go as deep as the
program is high.  The limit of nesting bounds this only in part.  A level is counted wherever the
grammar starts over, for a statement, a whole expression or an operand of a step; but the operators
of a tier are read in a loop, one after another on the same level, and each of them makes the tree
one step higher on its left.

So the limit bounds how far it is down a program as long as steps to the left of an operator are not
counted, and the operators that are written bound the rest (`height_le_of_parse`).  By the limit
alone the height is not bounded (`not_height_bounded`).

## What is here

* `heightWith left`: the height of a tree where a step to the left of an operator counts `left`, and
  every other step counts one.
* The bound for concrete syntax trees, form by form, from the levels that they nest and the
  operators that they write.
-/

set_option autoImplicit false

namespace SvLang

open SvLang.Parser

/-! ## Heights -/

namespace Expr

mutual

/-- The height of an expression if a step to what stands on the left of an operator counts `left`
and every other step counts one. -/
def heightWith (left : Nat) : Expr → Nat
  | binary l _ r => max (l.heightWith left + left) (r.heightWith left + 1)
  | unary _ operand? => above? left operand?
  | identifier _ | number .. | text .. => 0
  | call _ arguments => above left arguments
  | ret value? => above? left value?

/-- The height of a node over an expression or none. -/
def above? (left : Nat) : Option Expr → Nat
  | none => 0
  | some e => e.heightWith left + 1

/-- The height of a node over some expressions. -/
def above (left : Nat) : List Expr → Nat
  | [] => 0
  | e :: es => max (e.heightWith left + 1) (above left es)

end

theorem above_append (left : Nat) (ds es : List Expr) :
    above left (ds ++ es) = max (above left ds) (above left es) := by
  induction ds with
  | nil => simp [above]
  | cons d ds ih => simp [above, ih, Nat.max_assoc]

end Expr

mutual

/-- The height of a statement, with steps counted as in expressions. -/
def Stmt.heightWith (left : Nat) : Stmt → Nat
  | .variable _ _ initializer? => Expr.above? left initializer?
  | .array _ _ elements => Expr.above left elements
  | .function _ _ body => Stmt.above left body
  | .whileLoop condition body => max (condition.heightWith left + 1) (Stmt.above left body)
  | .ifElse condition thenBody elseBody? =>
    max (condition.heightWith left + 1)
      (max (Stmt.above left thenBody) (Stmt.aboveBody? left elseBody?))
  | .forLoop initializer? condition? increment? body =>
    max (Stmt.above? left initializer?)
      (max (Expr.above? left condition?)
        (max (Expr.above? left increment?) (Stmt.above left body)))
  | .switch subject cases default? =>
    max (subject.heightWith left + 1)
      (max (Case.above left cases) (Stmt.aboveBody? left default?))
  | .block body => Stmt.above left body
  | .empty => 0
  | .expr e => e.heightWith left + 1

/-- The height of a node over a statement or none. -/
def Stmt.above? (left : Nat) : Option Stmt → Nat
  | none => 0
  | some s => s.heightWith left + 1

/-- The height of a node over some statements. -/
def Stmt.above (left : Nat) : List Stmt → Nat
  | [] => 0
  | s :: ss => max (s.heightWith left + 1) (Stmt.above left ss)

/-- The height of a node over some statements or none. -/
def Stmt.aboveBody? (left : Nat) : Option (List Stmt) → Nat
  | none => 0
  | some body => Stmt.above left body

/-- The height of a case. -/
def Case.heightWith (left : Nat) : Case → Nat
  | .mk value body => max (value.heightWith left + 1) (Stmt.above left body)

/-- The height of a node over some cases. -/
def Case.above (left : Nat) : List Case → Nat
  | [] => 0
  | c :: cs => max (c.heightWith left + 1) (Case.above left cs)

end

theorem Stmt.above_append (left : Nat) (rs ss : List Stmt) :
    above left (rs ++ ss) = max (above left rs) (above left ss) := by
  induction rs with
  | nil => simp [above]
  | cons r rs ih => simp [above, ih, Nat.max_assoc]

theorem Case.above_append (left : Nat) (bs cs : List Case) :
    above left (bs ++ cs) = max (above left bs) (above left cs) := by
  induction bs with
  | nil => simp [above]
  | cons b bs ih => simp [above, ih, Nat.max_assoc]

/-- The height of a program, with steps counted as in expressions. -/
def Program.heightWith (left : Nat) (p : Program) : Nat := Stmt.above left p.body

/-- The height of a program: how many steps it is from its root to the farthest node. -/
def Program.height (p : Program) : Nat := p.heightWith 1

/-! ## What is written -/

/-- What a terminal counts if each operator counts `left`. -/
def Terminal.weight (left : Nat) (x : Terminal) : Nat := if x.kind.isOperator then left else 0

/-- What a text counts if each operator in it counts `left`. -/
def textWeight (left : Nat) : List Terminal → Nat
  | [] => 0
  | x :: u => x.weight left + textWeight left u

theorem textWeight_cons (left : Nat) (x : Terminal) (u : List Terminal) :
    textWeight left (x :: u) = x.weight left + textWeight left u := rfl

theorem textWeight_append (left : Nat) (u v : List Terminal) :
    textWeight left (u ++ v) = textWeight left u + textWeight left v := by
  induction u with
  | nil => simp [textWeight]
  | cons x u ih => rw [List.cons_append, textWeight_cons, ih, textWeight_cons, Nat.add_assoc]

theorem Terminal.weight_operator (left : Nat) (op : BinaryOp) :
    (Terminal.ofSymbol op.symbol).weight left = left := by
  have hop : (Terminal.ofSymbol op.symbol).kind.isOperator := by
    rw [TokenKind.isOperator, List.any_eq_true]
    exact ⟨op, op.mem_all, by simp [ofSymbol]⟩
  rw [weight, if_pos hop]

theorem textWeight_zero (u : List Terminal) : textWeight 0 u = 0 := by
  induction u with
  | nil => rfl
  | cons x u ih => simp [textWeight, ih, Terminal.weight]

theorem textWeight_one (u : List Terminal) : textWeight 1 u = u.countP (·.kind.isOperator) := by
  induction u with
  | nil => rfl
  | cons x u ih => rw [textWeight_cons, ih, Terminal.weight, List.countP_cons, Nat.add_comm]

/-! ## Expressions -/

/-- The bound on the meaning of the tree of an expression, form by form, from the levels that it
nests and the weight of what it writes.  From one level to the next it is at most four steps: one to
the right of an operator of each tier, and one into the primary expression. -/
def ExprForm.HeightLe (left levels weight : Nat) : (c : ExprForm) → c.Abstract → Prop
  | .tier τ, e => Expr.heightWith left e ≤ 4 * levels + τ.rank + weight
  | .operand, e | .whole, e => Expr.heightWith left e + 1 ≤ 4 * levels + weight
  | .items, es | .arguments, es => Expr.above left es ≤ 4 * levels + weight

theorem ExprTree.height_le (left : Nat) {c : ExprForm} (t : ExprTree c) :
    c.HeightLe left t.levels (textWeight left t.terminals) t.abstract := by
  induction t with
  | name | number | quoted | retNothing | noArguments =>
    simp [ExprForm.HeightLe, abstract, Expr.heightWith, Expr.above?, Expr.above]
  | call _ _ ih | stepBefore _ _ ih | group _ ih | ret _ ih
  | operand _ ih | one _ ih | arguments _ ih =>
    simp only [ExprForm.HeightLe, abstract, levels, terminals, Expr.heightWith, Expr.above?,
      Expr.above, Tier.rank, textWeight_cons, textWeight_append] at ih ⊢
    omega
  | whole _ ih =>
    simp only [ExprForm.HeightLe, abstract, levels, terminals, Tier.rank] at ih ⊢
    omega
  | lift h _ ih =>
    have hrank := Tier.rank_of_above? h
    simp only [ExprForm.HeightLe, abstract, levels, terminals] at ih ⊢
    omega
  | binary h _ op _ _ ihl ihr =>
    have hrank := Tier.rank_of_above? h
    have hop := Terminal.weight_operator left op
    simp only [ExprForm.HeightLe, abstract, levels, terminals, Expr.heightWith, textWeight_cons,
      textWeight_append] at ihl ihr ⊢
    omega
  | stepBehind _ op ih =>
    have hop := Terminal.weight_operator left (.step op)
    simp only [BinaryOp.symbol] at hop
    simp only [ExprForm.HeightLe, abstract, levels, terminals, Expr.heightWith, Expr.above?,
      Tier.rank, textWeight_cons, textWeight_append] at ih ⊢
    omega
  | more _ _ ihs ih =>
    simp only [ExprForm.HeightLe, abstract, levels, terminals, Expr.above_append, Expr.above,
      textWeight_cons, textWeight_append] at ihs ih ⊢
    omega

/-! ## Statements -/

theorem ExprTree.whole_height_lt (left : Nat) (e : ExprTree .whole) :
    e.abstract.heightWith left + 1 ≤ 4 * e.levels + textWeight left e.terminals := e.height_le left

theorem ExprTree.above_arguments_le (left : Nat) (es : ExprTree .arguments) :
    Expr.above left es.abstract ≤ 4 * es.levels + textWeight left es.terminals := es.height_le left

theorem DeclarationTree.height_le (left : Nat) (d : DeclarationTree) :
    d.abstract.heightWith left ≤ 4 * d.levels + textWeight left d.terminals := by
  cases d with
  | initialized type? x e =>
    have he := e.whole_height_lt left
    simp only [abstract, levels, terminals, Stmt.heightWith, Expr.above?, textWeight_cons,
      textWeight_append]
    omega
  | uninitialized => simp [abstract, Stmt.heightWith, Expr.above?]
  | array type? x es =>
    have hes := es.above_arguments_le left
    simp only [abstract, levels, terminals, Stmt.heightWith, textWeight_cons, textWeight_append]
    omega

theorem ForStartTree.height_le (left : Nat) (t : ForStartTree) :
    Stmt.above? left t.abstract ≤ 4 * t.levels + 1 + textWeight left t.terminals := by
  cases t with
  | nothing => simp [abstract, Stmt.above?]
  | declaration d =>
    have hd := d.height_le left
    simp only [abstract, levels, terminals, Stmt.above?]
    omega
  | expr e =>
    have he := e.whole_height_lt left
    simp only [abstract, levels, terminals, Stmt.above?, Stmt.heightWith, textWeight_append]
    omega

theorem ForConditionTree.height_le (left : Nat) (t : ForConditionTree) :
    Expr.above? left t.abstract ≤ 4 * t.levels + 4 + textWeight left t.terminals := by
  cases t with
  | nothing => simp [abstract, Expr.above?]
  | name x =>
    simp only [abstract, Expr.above?, Expr.heightWith]
    omega
  | compare x op _ bound =>
    have hop := Terminal.weight_operator left (.comparison op)
    have hbound : bound.abstract.heightWith left ≤ 4 * bound.levels + 2 +
      textWeight left bound.terminals := bound.height_le left
    simp only [abstract, levels, terminals, Expr.above?, Expr.heightWith, textWeight_cons]
    omega

theorem ForIncrementTree.height_le (left : Nat) (t : ForIncrementTree) :
    Expr.above? left t.abstract ≤ 4 * t.levels + 2 + textWeight left t.terminals := by
  cases t with
  | nothing => simp [abstract, Expr.above?]
  | step x op =>
    simp only [abstract, Expr.above?, Expr.heightWith]
    omega
  | expr e =>
    have he := e.whole_height_lt left
    simp only [abstract, levels, terminals, Expr.above?]
    omega

/-- The bound on the meaning of the tree of a statement, form by form.  From one statement to the
next it is at most five steps.  The condition of a loop needs them all: it is read on the level of
the loop itself, a bound of the additive tier to the right of an operator. -/
def StmtForm.HeightLe (left levels weight : Nat) : (c : StmtForm) → c.Abstract → Prop
  | .statement, s => Stmt.heightWith left s ≤ 5 * levels + 4 + weight
  | .nested, s | .elseIf, s => Stmt.heightWith left s + 1 ≤ 5 * levels + weight
  | .conditional, s => Stmt.heightWith left s ≤ 5 * levels + weight
  | .body, ss | .block, ss | .caseBody, ss => Stmt.above left ss ≤ 5 * levels + weight
  | .elsePart, body? | .defaultPart, body? => Stmt.aboveBody? left body? ≤ 5 * levels + weight
  | .cases, cs => Case.above left cs ≤ 5 * levels + 1 + weight

theorem StmtTree.height_le (left : Nat) {c : StmtForm} (t : StmtTree c) :
    c.HeightLe left t.levels (textWeight left t.terminals) t.abstract := by
  induction t with
  | empty | nil | noElse | noCases | noDefault =>
    simp [StmtForm.HeightLe, abstract, Stmt.heightWith, Stmt.above, Stmt.aboveBody?, Case.above]
  | declaration d =>
    have hd := d.height_le left
    simp only [StmtForm.HeightLe, abstract, levels, terminals]
    omega
  | function _ _ _ ih | block _ ih | conditional _ ih | nested _ ih | braces _ ih | elseIf _ ih
  | elseBlock _ ih | caseBody _ ih | default _ ih =>
    simp only [StmtForm.HeightLe, abstract, levels, terminals, Stmt.heightWith, Stmt.aboveBody?,
      textWeight_cons, textWeight_append] at ih ⊢
    omega
  | elseBranch _ ih =>
    simp only [StmtForm.HeightLe, abstract, levels, terminals, Stmt.aboveBody?, Stmt.above,
      textWeight_cons] at ih ⊢
    omega
  | expr e _ =>
    have he := e.whole_height_lt left
    simp only [StmtForm.HeightLe, abstract, levels, terminals, Stmt.heightWith, textWeight_append]
    omega
  | snoc _ _ ihs ih =>
    simp only [StmtForm.HeightLe, abstract, levels, terminals, Stmt.above_append, Stmt.above,
      textWeight_append] at ihs ih ⊢
    omega
  | whileLoop e _ ih =>
    have he := e.whole_height_lt left
    simp only [StmtForm.HeightLe, abstract, levels, terminals, Stmt.heightWith, textWeight_cons,
      textWeight_append] at ih ⊢
    omega
  | ifElse e _ _ ihthen ihelse =>
    have he := e.whole_height_lt left
    simp only [StmtForm.HeightLe, abstract, levels, terminals, Stmt.heightWith, textWeight_cons,
      textWeight_append] at ihthen ihelse ⊢
    omega
  | forLoop start condition increment _ ih =>
    have hstart := start.height_le left
    have hcondition := condition.height_le left
    have hincrement := increment.height_le left
    simp only [StmtForm.HeightLe, abstract, levels, terminals, Stmt.heightWith, textWeight_cons,
      textWeight_append] at ih ⊢
    omega
  | switch subject _ _ ihcs ihd =>
    have hsubject := subject.whole_height_lt left
    simp only [StmtForm.HeightLe, abstract, levels, terminals, Stmt.heightWith, textWeight_cons,
      textWeight_append] at ihcs ihd ⊢
    omega
  | addCase _ value _ ihcs ihb =>
    have hvalue := value.whole_height_lt left
    simp only [StmtForm.HeightLe, abstract, levels, terminals, Case.above_append, Case.above,
      Case.heightWith, textWeight_cons, textWeight_append] at ihcs ihb ⊢
    omega

/-! ## Programs -/

/-- How many operators are written before the input ends. -/
def operatorsBeforeEnd (ts : List Token) : Nat :=
  (ts.takeWhile fun t ↦ t.kind ≠ .eof).countP (·.kind.isOperator)

theorem heightWith_le_of_parseWithin {limit : Nat} {ts : List Token} {p : Program}
    (h : parseWithin limit ts = .ok p) (left : Nat) :
    p.heightWith left ≤ 5 * limit +
      textWeight left ((ts.takeWhile fun t ↦ t.kind ≠ .eof).map Token.terminal) := by
  obtain ⟨t, hts, hl, rfl⟩ := exists_tree_of_parseWithin h
  have ht : Program.heightWith left ⟨t.abstract⟩ ≤ 5 * t.levels + textWeight left t.terminals :=
    t.height_le left
  rw [hts]
  omega

/-- **What the limit bounds.**  No way down a program that is read is longer than `5 * maxNesting`
steps if steps to the left of an operator are not counted; if they are, it is longer by at most one
step for each operator that is written. -/
theorem height_le_of_parse {ts : List Token} {p : Program} (h : parse ts = .ok p) :
    p.heightWith 0 ≤ 5 * maxNesting ∧ p.height ≤ 5 * maxNesting + operatorsBeforeEnd ts := by
  have hzero := heightWith_le_of_parseWithin h 0
  have hone := heightWith_le_of_parseWithin h 1
  rw [textWeight_zero] at hzero
  rw [textWeight_one, List.countP_map] at hone
  exact ⟨hzero, hone⟩

/-- The text `x + x;`, which is three steps high, one of them to the left. -/
theorem height_le_of_parse_sum :
    parse [⟨.identifier, "x", ⟨0, 1⟩⟩, ⟨.symbol .plus, "+", ⟨2, 3⟩⟩, ⟨.identifier, "x", ⟨4, 5⟩⟩,
        ⟨.symbol .semicolon, ";", ⟨5, 6⟩⟩] =
      .ok ⟨[.expr (.binary (.identifier ⟨"x", none⟩) (.arithmetic .add)
        (.identifier ⟨"x", none⟩))]⟩ ∧
    Program.heightWith 0 ⟨[.expr (.binary (.identifier ⟨"x", none⟩) (.arithmetic .add)
        (.identifier ⟨"x", none⟩))]⟩ ≤ 640 ∧
    Program.height ⟨[.expr (.binary (.identifier ⟨"x", none⟩) (.arithmetic .add)
        (.identifier ⟨"x", none⟩))]⟩ ≤ 641 := by
  have hparse : parse [⟨.identifier, "x", ⟨0, 1⟩⟩, ⟨.symbol .plus, "+", ⟨2, 3⟩⟩,
      ⟨.identifier, "x", ⟨4, 5⟩⟩, ⟨.symbol .semicolon, ";", ⟨5, 6⟩⟩] =
    .ok ⟨[.expr (.binary (.identifier ⟨"x", none⟩) (.arithmetic .add)
      (.identifier ⟨"x", none⟩))]⟩ := by with_unfolding_all rfl
  exact ⟨hparse, height_le_of_parse hparse⟩

/-! ## No bound by the limit alone -/

/-- The text `x + x + … + x` with `n` operators. -/
def ExprTree.sum : Nat → ExprTree (.tier .additive)
  | 0 => .lift rfl (.lift rfl (.name "x"))
  | n + 1 => .binary rfl (sum n) (.arithmetic .add) rfl (.lift rfl (.name "x"))

namespace ExprTree

theorem levels_sum (n : Nat) : (sum n).levels = 0 := by
  induction n with
  | zero => rfl
  | succ n ih => simp [sum, levels, ih]

theorem settled_sum (n : Nat) (k : TokenKind) : (sum n).Settled k := by
  induction n generalizing k with
  | zero => trivial
  | succ n ih => exact ⟨ih _, trivial⟩

theorem le_height_sum (n : Nat) : n ≤ (sum n).abstract.heightWith 1 := by
  induction n with
  | zero => exact Nat.zero_le _
  | succ n ih => exact Nat.le_trans (Nat.succ_le_succ ih) (Nat.le_max_left _ _)

/-- Every text of this form is written by some tokens. -/
theorem exists_tokens_sum (n : Nat) :
    ∃ ts : List Token, ts.map Token.terminal = (sum n).terminals := by
  induction n with
  | zero => exact ⟨[⟨.identifier, "x", ⟨0, 0⟩⟩], rfl⟩
  | succ n ih =>
    obtain ⟨ts, hts⟩ := ih
    refine ⟨ts ++ [⟨.symbol .plus, "+", ⟨0, 0⟩⟩, ⟨.identifier, "x", ⟨0, 0⟩⟩], ?_⟩
    rw [List.map_append, hts]
    rfl

end ExprTree

/-- Programs of any height are read within two levels. -/
theorem exists_le_height {limit : Nat} (hlimit : 2 ≤ limit) (n : Nat) :
    ∃ ts p, parseWithin limit ts = .ok p ∧ n ≤ p.height := by
  let t : StmtTree .body := .snoc .nil (.nested (.expr (.whole (.lift rfl (.sum n))) true))
  obtain ⟨ts, hts⟩ := ExprTree.exists_tokens_sum n
  have hlevels : t.levels ≤ limit := by
    simpa [t, StmtTree.levels, ExprTree.levels, ExprTree.levels_sum] using hlimit
  have hsettled : t.Settled := by
    simp [t, StmtTree.Settled, ExprTree.Settled, ExprTree.settled_sum]
  have hterminals :
      List.map Token.terminal (ts ++ [⟨.symbol .semicolon, ";", ⟨0, 0⟩⟩]) = t.terminals := by
    rw [List.map_append, hts]
    rfl
  have hend : (front []).kind = .eof := rfl
  refine ⟨_, _, parseWithin_terminals hlevels hsettled hterminals hend, ?_⟩
  have hsum := ExprTree.le_height_sum n
  simp only [Program.height, Program.heightWith, t, StmtTree.abstract, ExprTree.abstract,
    List.nil_append, Stmt.above, Stmt.heightWith]
  omega

/-- The limit alone bounds no height: a sum may have any number of operands on one level. -/
theorem not_height_bounded : ¬ ∃ bound, ∀ ts p, parse ts = .ok p → p.height ≤ bound := by
  rintro ⟨bound, h⟩
  obtain ⟨ts, p, hparse, hheight⟩ := exists_le_height (show 2 ≤ maxNesting by decide) (bound + 1)
  exact Nat.not_succ_le_self bound (Nat.le_trans hheight (h ts p hparse))

end SvLang
