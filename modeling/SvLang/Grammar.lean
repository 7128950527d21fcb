import SvLang.Grammar.Statement

/-!
# The grammar, level by level

The rules of expressions and statements are given the rules for what lies one level of nesting
deeper.  Here the circle is closed: `rules limit room` are the rules where `room` further levels
are allowed.  At the limit itself nothing is accepted; above it the rules are those of the grammar
over the rules one level deeper.

A level is counted for each statement, each whole expression, each operand of a step operator in
front of it, and each `if` behind an `else`; the tiers of an expression are no levels.
-/

set_option autoImplicit false

namespace SvLang

open SvLang.Parser

/-- The rules of the grammar as they apply one level of nesting further out. -/
def Rules.outer (R : Rules) : Rules where
  expr := R.comparison
  operand := R.primary
  stmt := R.statement
  elseIf := R.ifStatement
  expr_shrinks := R.shrinks_comparison
  operand_shrinks := R.shrinks_primary
  stmt_shrinks := R.shrinks_statement
  elseIf_shrinks := R.shrinks_ifStatement

/-- The rules of the grammar where `room` levels of the `limit` are left. -/
def rules (limit : Nat) : Nat → Rules
  | 0 => .exhausted limit
  | room + 1 => (rules limit room).outer

/-- The program that a list of tokens writes if programs may nest `limit` levels deep.  It ends at
the first token of kind `eof`, or with the list. -/
def parseWithin (limit : Nat) (ts : List Token) : Except ParseError Program :=
  let R := rules limit limit
  (manyUntil (· = .eof) R.stmt R.stmt_shrinks ts).map fun (body, _) ↦ ⟨body⟩

/-- How many levels deep a program may nest. -/
def maxNesting : Nat := 128

/-- The program that a list of tokens writes. -/
def parse (ts : List Token) : Except ParseError Program := parseWithin maxNesting ts

end SvLang
