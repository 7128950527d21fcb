import SvLang.Proofs.Java.Written

/-!
# The lines of an emitted program

The Java text of a program has one line for each variable that has a Java form, between two lines
above and two below.  Nothing in the source can change this: a name is a word of the source, and
what a text holds is escaped, so no line feed gets into the line of a variable.

This holds for a program that has just been read as well as for what the analysis makes of it, and
there it makes no difference whether the analysis comes to its end.  So other than in an accepted
program, variables without an initializer are met, and arithmetic that has not been folded.
`lines_emit_of_parseSource` is the main statement.

## What is here

* `Stmt.isRenderable`: the variables that have a Java form.
* `Rendered` and `LineOf`: the text of an initializer and the line of a variable.
* `LaidOut`: what the lines of a Java text have to do with the program.
-/

set_option autoImplicit false

namespace SvLang

/-! ## Variables that have a Java form -/

/-- Whether the expression is a number, a text, a name, or arithmetic on such expressions. -/
def Expr.isRenderable : Expr → Bool
  | binary left (.arithmetic _) right => left.isRenderable && right.isRenderable
  | e => e.isAtomic

/-- Whether the statement declares a variable, without an initializer or with such a one. -/
def Stmt.isRenderable : Stmt → Bool
  | .variable _ _ none => true
  | .variable _ _ (some e) => e.isRenderable
  | _ => false

namespace Java

open Lexeme

/-- An operand that is an operation stands in parentheses. -/
def operandText (e : Expr) (text : String) : String :=
  match e with
  | .binary .. => "(" ++ text ++ ")"
  | _ => text

/-- The type and the text of an initializer. -/
inductive Rendered : Expr → VariableType → String → Prop where
  | atom {e : Expr} {type : VariableType} {value : String} (h : WrittenAs e type value) :
      Rendered e type value
  | operation {left right : Expr} {ltype rtype : VariableType} {l r : String} (op : ArithmeticOp)
      (hl : Rendered left ltype l) (hr : Rendered right rtype r) :
      Rendered (.binary left (.arithmetic op) right) .int
        (operandText left l ++ " " ++ (BinaryOp.arithmetic op).spelling ++ " " ++
          operandText right r)

/-- The line of a variable, whose name is neither a type nor a keyword. -/
inductive LineOf : Stmt → String → Prop where
  | unset (id : Identifier) (type? : Option TypeName) (hx : IsName id.name) :
      LineOf (.variable id type? none) (indented ("int " ++ id.name ++ ";"))
  | set (id : Identifier) (type? : Option TypeName) {e : Expr} {type : VariableType}
      {value : String} (hx : IsName id.name) (h : Rendered e type value) :
      LineOf (.variable id type? (some e)) (settingLine type id.name value)

namespace Value

/-- The operands that are operations are those whose values are. -/
theorem grouped_of_ofExpr? {e : Expr} {v : Value} (h : ofExpr? e = some v) (text : String) :
    v.grouped text = operandText e text := by
  rw [ofExpr?.eq_def] at h
  split at h
  · split at h <;> cases h <;> rfl
  · cases h
    rfl
  · cases h
    rfl
  · cases h
    rfl
  · split at h <;> cases h
    rfl
  · cases h

/-- The value of an initializer that has a Java form, and its text. -/
theorem exists_of_isRenderable {e : Expr} (h : e.isRenderable) :
    ∃ v, ofExpr? e = some v ∧ Rendered e v.type v.render := by
  induction e using Expr.isRenderable.induct with
  | case1 left op right ihl ihr =>
    rw [Expr.isRenderable, Bool.and_eq_true] at h
    obtain ⟨l, hl, hleft⟩ := ihl h.1
    obtain ⟨r, hr, hright⟩ := ihr h.2
    refine ⟨.operation l op r, by rw [ofExpr?, hl, hr], ?_⟩
    rw [render, grouped_of_ofExpr? hl, grouped_of_ofExpr? hr]
    exact .operation op hleft hright
  | case2 e he =>
    rw [Expr.isRenderable.eq_2 e he] at h
    obtain ⟨v, hv, hwritten⟩ := exists_of_isAtomic h
    exact ⟨v, hv, .atom hwritten⟩

/-- Any other initializer has no value. -/
theorem ofExpr?_of_not_isRenderable {e : Expr} (h : e.isRenderable = false) : ofExpr? e = none := by
  induction e using Expr.isRenderable.induct with
  | case1 left op right ihl ihr =>
    rw [Expr.isRenderable, Bool.and_eq_false_iff] at h
    rw [ofExpr?]
    rcases h with hl | hr
    · rw [ihl hl]
    · rw [ihr hr]
      cases ofExpr? left <;> rfl
  | case2 e he =>
    rw [Expr.isRenderable.eq_2 e he] at h
    exact ofExpr?_eq_none ((Expr.leftOut_iff fun l a r ↦ he l a r).2 h)

end Value

namespace Declaration

/-- A variable that has a Java form is written on its line. -/
theorem exists_of_isRenderable {s : Stmt} (h : s.isRenderable)
    (hx : ∀ x, s.declaredName? = some x → IsName x) :
    ∃ d, ofStmt? s = some d ∧ LineOf s (indented d.render) := by
  rw [Stmt.isRenderable.eq_def] at h
  split at h
  · rename_i id type?
    exact ⟨⟨.int, id.name, none⟩, rfl, .unset id type? (hx id.name rfl)⟩
  · rename_i id type? e
    obtain ⟨v, hv, hrendered⟩ := Value.exists_of_isRenderable h
    refine ⟨⟨v.type, id.name, some v⟩, ?_, .set id type? (hx id.name rfl) hrendered⟩
    rw [ofStmt?, hv]
    rfl
  · cases h

/-- Any other statement is left out. -/
theorem ofStmt?_of_not_isRenderable {s : Stmt} (h : s.isRenderable = false) :
    ofStmt? s = none := by
  rw [Stmt.isRenderable.eq_def] at h
  split at h
  · cases h
  · rw [ofStmt?, Value.ofExpr?_of_not_isRenderable h]
    rfl
  · rw [ofStmt?.eq_def]
    split <;> simp_all

end Declaration

end Java

/-! ## Names -/

/-- The name that a statement declares is written in its tree. -/
theorem StmtTree.declaredName_mem {s : StmtTree .statement} {x : String}
    (h : s.abstract.declaredName? = some x) : Terminal.ofName x ∈ s.terminals := by
  cases s with
  | declaration d =>
    cases d <;> cases h <;> simp [terminals, DeclarationTree.terminals]
  | conditional c =>
    cases c
    cases h
  | _ => cases h

/-- Folding keeps the name that is declared. -/
theorem Stmt.PartlyFolded.declaredName?_eq {s s' : Stmt} (h : s.PartlyFolded s') :
    s'.declaredName? = s.declaredName? := by
  cases h <;> rfl

namespace Java

/-! ## Lines -/

/-- The lines of the Java text of a program. -/
structure LaidOut (p : Program) (written : List String) : Prop where
  /-- Two lines stand above those of the variables and two below, the last of which is ended by a
  line feed. -/
  lines : lines (emit p) = headerLines ++ written ++ footerLines
  /-- Each variable that has a Java form is written on one line, in the order of the statements. -/
  lineOf : List.Forall₂ LineOf (p.body.filter Stmt.isRenderable) written

/-- A Java text is laid out by lines if names are names of the source. -/
theorem exists_laidOut {p : Program} (hnamed : ∀ s ∈ p.body, s.Named)
    (hnames : ∀ s ∈ p.body, ∀ x, s.declaredName? = some x → Lexeme.IsName x) :
    ∃ written, LaidOut p written := by
  have hdeclarations : ∀ d ∈ declarations p, d.Named := by
    intro d hd
    obtain ⟨s, hs, hsd⟩ := List.mem_filterMap.1 hd
    exact (hnamed s hs).declaration hsd
  exact ⟨_, lines_mainClass hdeclarations,
    forall₂_filterMap (fun s hs h ↦ Declaration.exists_of_isRenderable h (hnames s hs))
      fun _ _ ↦ Declaration.ofStmt?_of_not_isRenderable⟩

/-- **The lines of an emitted program.**  Let a source be read.  The Java text of the program, and
the text of what any analysis leaves of it, have two lines, then one line for each variable that has
a Java form, in order, and then two lines.  The line of a variable is indented by eight blanks and
has its type, its name, which is a word of the source and neither a type nor a keyword, the text of
its initializer if there is one, and a semicolon. -/
theorem lines_emit_of_parseSource {source : String} {p : Program}
    (h : parseSource source = .ok p) :
    (∃ written, LaidOut p written) ∧ ∀ t, ∃ written, LaidOut (p.analyze t).value written := by
  have hnamed := named_of_parseSource h
  have hnames : ∀ s ∈ p.body, ∀ x, s.declaredName? = some x → Lexeme.IsName x := by
    intro s hs x hx
    obtain ⟨s', rfl, hwritten⟩ := exists_tree_of_parseSource h hs
    exact hwritten x (StmtTree.declaredName_mem hx)
  refine ⟨exists_laidOut hnamed hnames, fun t ↦ ?_⟩
  refine exists_laidOut (fun s' hs' ↦ ?_) fun s' hs' x hx ↦ ?_
  · obtain ⟨s, hs, hfold⟩ := Program.exists_partlyFolded hs'
    exact hfold.named (hnamed s hs)
  · obtain ⟨s, hs, hfold⟩ := Program.exists_partlyFolded hs'
    exact hnames s hs x (hfold.declaredName?_eq ▸ hx)

/-- A text with a quote, a backslash and a line feed, a variable that is not set, and a difference
in parentheses.  The call is left out. -/
theorem lines_emit_of_parseSource_texts :
    ∃ source p, parseSource source = .ok p ∧ '\n' ∈ source.toList ∧
      lines (emit p) = headerLines ++ ["        String s = \x22a\\\x22\\\\\\nb\x22;",
        "        int n;", "        int k = n - (n - 2);"] ++ footerLines ∧
      (∃ written, LaidOut p written) ∧ ∀ t, ∃ written, LaidOut (p.analyze t).value written := by
  have hlines : (parseSource
      "sv s = 'a\x22\\\nb'; int n; float k = n - (n - 2); sv f = g(1);").toOption.map
        (fun p ↦ lines (emit p)) =
      some (headerLines ++ ["        String s = \x22a\\\x22\\\\\\nb\x22;",
        "        int n;", "        int k = n - (n - 2);"] ++ footerLines) := by
    decide +kernel
  obtain ⟨p, hp, hlines⟩ := Option.map_eq_some_iff.1 hlines
  have hparse := eq_ok_of_toOption hp
  exact ⟨_, p, hparse, by decide, hlines, lines_emit_of_parseSource hparse⟩

end Java

end SvLang
