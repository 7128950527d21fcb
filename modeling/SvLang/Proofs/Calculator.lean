import SvLang.Proofs.Analysis.Folding
import SvLang.Proofs.Calculator.Numeral
import SvLang.Proofs.Source

/-!
# Constant expressions

A chain of numbers with arithmetic operators between them passes through all stages: it is read as
lexemes, as a tree, and folded to one number.  The `Calculator` computes that number in one pass
over the chain, without a tree: it holds a sum that waits for its right operand, and the term that
is being multiplied up.

`Calculator.Tracks` ties the two together.  It says that the state of the calculator is the value of
the tree, or of the two halves of a tree, that writes what has been read so far; one step keeps this
(`Tracks.step`), and so a whole run does (`Chain.tracks`).
-/

set_option autoImplicit false

namespace SvLang

/-! ## The calculator -/

/-- Whether the operator adds up terms. -/
def ArithmeticOp.isAdditive : ArithmeticOp → Bool
  | add | subtract => true
  | multiply | divide | remainder => false

/-- The symbol of the operator. -/
def ArithmeticOp.symbol (op : ArithmeticOp) : Symbol := (BinaryOp.arithmetic op).symbol

/-- A calculator that reads numbers and operators from left to right. -/
structure Calculator where
  /-- The sum of the terms before the current one, with the operator behind it. -/
  pending? : Option (Float × ArithmeticOp)
  term : Float

namespace Calculator

/-- The calculator that has read one number. -/
def start (x : Float) : Calculator := ⟨none, x⟩

/-- The sum of all that has been read. -/
def total (c : Calculator) : Float :=
  match c.pending? with
  | none => c.term
  | some (sum, op) => op.apply sum c.term

/-- Reads an operator and a number.  An operator of addition closes the current term. -/
def step (c : Calculator) (op : ArithmeticOp) (x : Float) : Calculator :=
  if op.isAdditive then ⟨some (c.total, op), x⟩ else ⟨c.pending?, op.apply c.term x⟩

end Calculator

/-! ## Chains -/

/-- Numbers with arithmetic operators between them. -/
structure Chain where
  first : Numeral
  rest : List (ArithmeticOp × Numeral)

namespace Chain

/-- Operators and numbers, each behind a space. -/
def tailSpelling : List (ArithmeticOp × Numeral) → List Char
  | [] => []
  | (op, n) :: rest => ' ' :: (op.symbol.spelling ++ ' ' :: (n.spelling ++ tailSpelling rest))

/-- The text of the chain. -/
def text (c : Chain) : String := String.ofList (c.first.spelling ++ tailSpelling c.rest)

/-- The lexemes of operators and numbers. -/
def tailLexemes : List (ArithmeticOp × Numeral) → List Lexeme
  | [] => []
  | (op, n) :: rest => .symbol op.symbol :: n.lexeme :: tailLexemes rest

/-- The calculator that has read the chain. -/
def calculator (c : Chain) : Calculator :=
  c.rest.foldl (fun state (op, n) ↦ state.step op n.value) (.start c.first.value)

/-- The widest class of a number in the chain. -/
def width (c : Chain) : Width := .widest (c.first.width :: c.rest.map fun (_, n) ↦ n.width)

end Chain

/-! ## Trees that compute -/

/-- The tree writes `u`, is folded to the number `x`, and takes up no levels.  No `return` is in
it, so it may stand in front of anything. -/
structure ExprTree.Computes {τ : Tier} (t : ExprTree (.tier τ)) (u : List Terminal) (w : Width)
    (x : Float) : Prop where
  terminals : t.terminals = u
  fold : Expr.fold t.abstract = .done (.number w x)
  levels : t.levels = 0
  settled : ∀ k, t.Settled k

namespace ExprTree.Computes

variable {σ τ : Tier} {u v : List Terminal} {w₁ w₂ : Width} {x y : Float}

theorem numeral (n : Numeral) :
    ∃ t : ExprTree (.tier .primary), t.Computes [n.lexeme.terminal] n.width n.value := by
  have hreads : Decimal.readFloat? (String.ofList n.spelling).toList = some n.value := by
    rw [String.toList_ofList, n.readFloat?_spelling]
  refine ⟨.number n.width (String.ofList n.spelling) n.value hreads, ?_, rfl, rfl, fun _ ↦ trivial⟩
  rw [Lexeme.terminal, n.kind_lexeme, n.text_lexeme]
  rfl

theorem lift (h : σ.above? = some τ) {t : ExprTree (.tier σ)} (ht : t.Computes u w₁ x) :
    (ExprTree.lift h t).Computes u w₁ x :=
  ⟨ht.terminals, ht.fold, ht.levels, ht.settled⟩

theorem binary (h : σ.above? = some τ) {l : ExprTree (.tier τ)} {r : ExprTree (.tier σ)}
    {op : ArithmeticOp} (hop : (BinaryOp.arithmetic op).tier? = some τ) (hl : l.Computes u w₁ x)
    (hr : r.Computes v w₂ y) :
    (ExprTree.binary h l (.arithmetic op) hop r).Computes (u ++ .ofSymbol op.symbol :: v)
      (w₁.max w₂) (op.apply x y) where
  terminals := by
    rw [ExprTree.terminals, hl.terminals, hr.terminals]
    rfl
  fold := by
    rw [ExprTree.abstract, Expr.fold, hl.fold, hr.fold]
    rfl
  levels := by
    rw [ExprTree.levels, hl.levels, hr.levels]
    rfl
  settled k := ⟨hl.settled _, hr.settled k⟩

end ExprTree.Computes

/-! ## The calculator follows the tree -/

theorem ArithmeticOp.tier?_of_isAdditive {op : ArithmeticOp} (h : op.isAdditive) :
    (BinaryOp.arithmetic op).tier? = some .additive := by
  cases op <;> first | rfl | cases h

theorem ArithmeticOp.tier?_of_not_isAdditive {op : ArithmeticOp} (h : ¬ op.isAdditive) :
    (BinaryOp.arithmetic op).tier? = some .multiplicative := by
  cases op <;> first | rfl | exact absurd rfl h

/-- What has been read as `u` is held by the calculator: as one term, or as a sum and a term. -/
inductive Calculator.Tracks : Calculator → List Terminal → Width → Prop where
  | term {t : ExprTree (.tier .multiplicative)} {u : List Terminal} {w : Width} {x : Float}
      (ht : t.Computes u w x) : Tracks ⟨none, x⟩ u w
  | sum {l : ExprTree (.tier .additive)} {r : ExprTree (.tier .multiplicative)}
      {op : ArithmeticOp} {u v : List Terminal} {w₁ w₂ : Width} {x y : Float}
      (hop : op.isAdditive) (hl : l.Computes u w₁ x) (hr : r.Computes v w₂ y) :
      Tracks ⟨some (x, op), y⟩ (u ++ .ofSymbol op.symbol :: v) (w₁.max w₂)

namespace Calculator.Tracks

variable {c : Calculator} {u : List Terminal} {w : Width}

/-- The total is the value of a tree for all that has been read. -/
theorem total (h : c.Tracks u w) : ∃ t : ExprTree (.tier .additive), t.Computes u w c.total := by
  cases h with
  | term ht => exact ⟨_, ht.lift rfl⟩
  | sum hop hl hr => exact ⟨_, .binary rfl (ArithmeticOp.tier?_of_isAdditive hop) hl hr⟩

/-- One step of the calculator follows the grammar: an operator of addition has all that has been
read on its left, and any other only the current term. -/
theorem step (h : c.Tracks u w) (op : ArithmeticOp) (n : Numeral) :
    (c.step op n.value).Tracks (u ++ [.ofSymbol op.symbol, n.lexeme.terminal]) (w.max n.width) := by
  obtain ⟨t, ht⟩ := ExprTree.Computes.numeral n
  rw [Calculator.step]
  split
  · rename_i hop
    obtain ⟨l, hl⟩ := h.total
    exact .sum hop hl (ht.lift rfl)
  · rename_i hop
    have htier := ArithmeticOp.tier?_of_not_isAdditive hop
    cases h with
    | term hterm => exact .term (.binary rfl htier hterm ht)
    | sum hsum hl hr =>
      have hr' := ExprTree.Computes.binary rfl htier hr ht
      rw [Width.max_assoc, List.append_assoc, List.cons_append]
      exact .sum hsum hl hr'

/-- The calculator follows the grammar through the rest of a chain. -/
theorem run {ws : List Width} (h : c.Tracks u (.widest ws)) (rest : List (ArithmeticOp × Numeral)) :
    (rest.foldl (fun state (op, n) ↦ state.step op n.value) c).Tracks
      (u ++ (Chain.tailLexemes rest).map Lexeme.terminal)
      (.widest (ws ++ rest.map fun (_, n) ↦ n.width)) := by
  induction rest generalizing c u ws with
  | nil => simpa [Chain.tailLexemes] using h
  | cons head rest ih =>
    obtain ⟨op, n⟩ := head
    have hstep := h.step op n
    rw [← Width.widest_singleton n.width, ← Width.widest_append] at hstep
    have hrun := ih hstep
    rw [List.append_assoc, List.append_assoc] at hrun
    exact hrun

end Calculator.Tracks

/-- The calculator that has read a chain holds the value of its tree. -/
theorem Chain.tracks (c : Chain) :
    c.calculator.Tracks (c.first.lexeme.terminal :: (tailLexemes c.rest).map Lexeme.terminal)
      c.width := by
  obtain ⟨t, ht⟩ := ExprTree.Computes.numeral c.first
  have hstart : (Calculator.start c.first.value).Tracks [c.first.lexeme.terminal]
      (.widest [c.first.width]) := by
    rw [Width.widest_singleton]
    exact .term (ht.lift (τ := .multiplicative) rfl)
  exact hstart.run c.rest

/-! ## The text of a chain -/

/-- A symbol of an arithmetic operator ends in front of a space. -/
theorem ArithmeticOp.endsBefore_space (op : ArithmeticOp) (rest : List Char) :
    (Lexeme.symbol op.symbol).EndsBefore (' ' :: rest) := by
  cases op <;> exact ⟨by rintro c ⟨⟩ d ⟨⟩; rfl, by simp⟩

/-- A number of a chain ends in front of what follows, a space or the semicolon. -/
theorem Chain.endsBefore_tail (n : Numeral) (rest : List (ArithmeticOp × Numeral)) :
    n.lexeme.EndsBefore (tailSpelling rest ++ [';']) := by
  cases rest with
  | nil => exact n.endsBefore_lexeme (by decide) (by decide)
  | cons head rest => exact n.endsBefore_lexeme (by decide) (by decide)

/-- The operators and numbers of a chain are read in front of a semicolon. -/
theorem Chain.lexes_tail (rest : List (ArithmeticOp × Numeral)) :
    Lexes (tailSpelling rest ++ [';']) (tailLexemes rest ++ [.symbol .semicolon]) := by
  induction rest with
  | nil => exact Lexes.semicolon
  | cons head rest ih =>
    obtain ⟨op, n⟩ := head
    simp only [tailSpelling, List.cons_append, List.append_assoc]
    exact .space (Lexeme.wellFormed_symbol _) (op.endsBefore_space _)
      (.space n.wellFormed_lexeme (endsBefore_tail n rest) ih)

/-! ## Constant expressions, from end to end -/

namespace Chain

/-- The text of a declaration that sets a variable to a chain. -/
def declaration (x : String) (c : Chain) : String := "sv " ++ x ++ " = " ++ c.text ++ ";"

/-- The lexemes of that declaration. -/
def declarationLexemes (x : String) (c : Chain) : List Lexeme :=
  .word ['s', 'v'] :: .word x.toList :: .symbol .assign :: c.first.lexeme ::
    (tailLexemes c.rest ++ [.symbol .semicolon])

theorem lexes_declaration {x : String} (hx : Lexeme.IsName x) (c : Chain) :
    Lexes (declaration x c).toList (declarationLexemes x c) := by
  have hfirst := Lexes.next c.first.wellFormed_lexeme (endsBefore_tail c.first c.rest)
    (lexes_tail c.rest)
  have htext : (declaration x c).toList = "sv ".toList ++ (x.toList ++ (" = ".toList ++
      (c.first.lexeme.spelling ++ (tailSpelling c.rest ++ [';'])))) := by
    simp [declaration, text, Numeral.spelling]
  rw [htext]
  exact hfirst.declaration hx

/-- **Constant expressions, from end to end.**  A source that sets a variable to a chain of numbers
is accepted however long the chain is.  It is analyzed to the declaration of the variable with one
number, which is what the calculator has read, in the widest class of a number in the chain; and the
variable is all that is declared. -/
theorem analyzeSource_declaration {x : String} (hx : Lexeme.IsName x) (c : Chain) :
    analyzeSource (declaration x c) = .ok
      ⟨⟨[.variable ⟨x, none⟩ none (some (.number c.width c.calculator.total))]⟩,
        SymbolTable.empty.insert x .numeric⟩ := by
  obtain ⟨t, ht⟩ := c.tracks.total
  -- The source is read as the tree of one declaration, two levels deep.
  let tree : StmtTree .body :=
    .snoc .nil (.nested (.declaration (.initialized none x (.whole (.lift rfl t)))))
  have hterminals : (declarationLexemes x c).map Lexeme.terminal = tree.terminals := by
    simp only [tree, declarationLexemes, StmtTree.terminals, DeclarationTree.terminals,
      ExprTree.terminals, ht.terminals, List.map_cons, List.map_append,
      Lexeme.terminal_of_isName hx]
    rfl
  have hlevels : tree.levels ≤ maxNesting := by
    have ht := ht.levels
    simp [tree, StmtTree.levels, DeclarationTree.levels, ExprTree.levels, ht, maxNesting]
  have hsettled : tree.Settled := ⟨trivial, ht.settled _⟩
  have hparse := parseSource_of_lexes (lexes_declaration hx c) hterminals hsettled hlevels
  refine analyzeSource_eq_ok_iff.2 ⟨_, hparse, ?_⟩
  have hfresh : SymbolTable.empty.contains x = false := by
    rw [SymbolTable.contains_eq, SymbolTable.type?_empty]
    rfl
  have hanalyze : Stmt.analyzeVariable .empty ⟨x, none⟩ none (some t.abstract) =
      ⟨.variable ⟨x, none⟩ none (some (.number c.width c.calculator.total)),
        SymbolTable.empty.insert x .numeric, none⟩ := by
    rw [Stmt.analyzeVariable, hfresh]
    simp only [ht.fold]
    rfl
  simp [tree, StmtTree.abstract, DeclarationTree.abstract, ExprTree.abstract, Program.analyze,
    analyzeFrom, Stmt.analyze, hanalyze]

/-- The chain `8 - 3 * 2 % 5.5 + 1`. -/
def sample : Chain :=
  ⟨.whole ['8'] ⟨by simp, by simp⟩,
    [(.subtract, .whole ['3'] ⟨by simp, by simp⟩), (.multiply, .whole ['2'] ⟨by simp, by simp⟩),
      (.remainder, .decimal ['5'] ['5'] ⟨by simp, by simp⟩ ⟨by simp, by simp⟩),
      (.add, .whole ['1'] ⟨by simp, by simp⟩)]⟩

/-- The multiplications go first, and the fraction makes the whole of it a `float`. -/
theorem analyzeSource_declaration_sample :
    analyzeSource "sv x = 8 - 3 * 2 % 5.5 + 1;" = .ok
      ⟨⟨[.variable ⟨"x", none⟩ none (some (.number .float 8.5))]⟩,
        SymbolTable.empty.insert "x" .numeric⟩ := by
  have hname : Lexeme.IsName "x" := ⟨⟨'x', [], rfl, by decide, by simp⟩, by decide⟩
  have htext : declaration "x" sample = "sv x = 8 - 3 * 2 % 5.5 + 1;" := by decide
  have hvalue : sample.calculator.total = 8.5 := by decide +kernel
  have h := analyzeSource_declaration hname sample
  rw [htext, hvalue] at h
  exact h

end Chain

end SvLang
