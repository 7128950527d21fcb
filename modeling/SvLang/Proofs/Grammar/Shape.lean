import SvLang.Proofs.Grammar.Tree

/-!
# The shape of programs that are written

Not every value of the program types is the meaning of a text.  `Expr.Shaped` and `Stmt.Shaped`
list what the grammar can make:

* an expression without operand stands to the right of a step operator of its own kind, where
  nothing else stands, and nowhere else;
* the condition of a `for` loop is a name, or a name that is less or greater than an expression of
  the additive tier;
* an identifier carries a type if it is a parameter, and only then.

The meaning of every concrete syntax tree has this shape.
-/

set_option autoImplicit false

namespace SvLang

/-! ## Expressions -/

/-- The expressions that the grammar makes. -/
inductive Expr.Shaped : Expr → Prop where
  | identifier (x : String) : Shaped (.identifier ⟨x, none⟩)
  | number (width : Width) (value : Float) : Shaped (.number width value)
  | text (quote : Quote) (content : String) : Shaped (.text quote content)
  | call (f : String) (es : List Expr) (hes : ∀ e ∈ es, Shaped e) : Shaped (.call ⟨f, none⟩ es)
  | ret (value? : Option Expr) (hvalue : ∀ e, value? = some e → Shaped e) : Shaped (.ret value?)
  | stepBefore (op : StepOp) (e : Expr) (he : Shaped e) : Shaped (.unary op (some e))
  | stepBehind (left : Expr) (op : StepOp) (hleft : Shaped left) :
      Shaped (.binary left (.step op) (.unary op none))
  | binary (left : Expr) (op : BinaryOp) (right : Expr) (hop : ∀ step, op ≠ .step step)
      (hleft : Shaped left) (hright : Shaped right) : Shaped (.binary left op right)

/-- The conditions of `for` loops that the grammar makes. -/
inductive Expr.IsLoopCondition : Expr → Prop where
  | name (x : String) : IsLoopCondition (.identifier ⟨x, none⟩)
  | compare (x : String) (op : ComparisonOp) (h : op = .less ∨ op = .greater)
      (bound : ExprTree (.tier .additive)) :
      IsLoopCondition (.binary (.identifier ⟨x, none⟩) (.comparison op) bound.abstract)

/-- An expression without operand is none that the grammar makes on its own. -/
theorem Expr.not_shaped_unary_none (op : StepOp) : ¬ (Expr.unary op none).Shaped := nofun

/-- What stands to the right of a step operator. -/
theorem Expr.Shaped.right_of_step {left right : Expr} {op : StepOp}
    (h : (Expr.binary left (.step op) right).Shaped) : right = .unary op none := by
  cases h with
  | stepBehind => rfl
  | binary _ _ _ hop => exact absurd rfl (hop op)

/-- What is asked of the meaning of a tree, form by form. -/
def ExprForm.Shaped : (c : ExprForm) → c.Abstract → Prop
  | .tier _, e | .operand, e | .whole, e => Expr.Shaped e
  | .items, es | .arguments, es => ∀ e ∈ (es : List Expr), e.Shaped

theorem BinaryOp.ne_step_of_tier? {op : BinaryOp} {τ : Tier} (h : op.tier? = some τ) :
    ∀ step, op ≠ .step step := by
  rintro step rfl
  cases h

/-- The meaning of the tree of an expression has the shape of its form. -/
theorem ExprTree.shaped {c : ExprForm} (t : ExprTree c) : c.Shaped t.abstract := by
  induction t with
  | name x => exact .identifier x
  | number w _ value => exact .number w value
  | quoted q content => exact .text q content
  | call f _ ih => exact .call f _ ih
  | stepBefore op _ ih => exact .stepBefore op _ ih
  | ret _ ih =>
    refine .ret _ ?_
    rintro _ ⟨⟩
    exact ih
  | retNothing => exact .ret none nofun
  | binary _ _ op hop _ ihl ihr => exact .binary _ op _ (BinaryOp.ne_step_of_tier? hop) ihl ihr
  | stepBehind _ op ih => exact .stepBehind _ op ih
  | group _ ih | lift _ _ ih | operand _ ih | whole _ ih | arguments _ ih => exact ih
  | one e ih => exact List.forall_mem_singleton.2 ih
  | more es e ihs ih => exact List.forall_mem_append.2 ⟨ihs, List.forall_mem_singleton.2 ih⟩
  | noArguments => exact fun _ h ↦ nomatch h

theorem ForConditionTree.isLoopCondition {t : ForConditionTree} {e : Expr}
    (h : t.abstract = some e) : e.IsLoopCondition := by
  cases t with
  | nothing => cases h
  | name x =>
    cases h
    exact .name x
  | compare x op hop bound =>
    cases h
    exact .compare x op hop bound

theorem ForConditionTree.shaped {t : ForConditionTree} {e : Expr} (h : t.abstract = some e) :
    e.Shaped := by
  cases t with
  | nothing => cases h
  | name x =>
    cases h
    exact .identifier x
  | compare x op _ bound =>
    cases h
    exact .binary _ _ _ nofun (.identifier x) bound.shaped

theorem ForIncrementTree.shaped {t : ForIncrementTree} {e : Expr} (h : t.abstract = some e) :
    e.Shaped := by
  cases t with
  | nothing => cases h
  | step x op =>
    cases h
    exact .stepBefore op _ (.identifier x)
  | expr e =>
    cases h
    exact e.shaped

/-! ## Statements -/

/-- The statements that the grammar makes. -/
inductive Stmt.Shaped : Stmt → Prop where
  | variable (x : String) (type? : Option TypeName) (initializer? : Option Expr)
      (he : ∀ e, initializer? = some e → e.Shaped) : Shaped (.variable ⟨x, none⟩ type? initializer?)
  | array (x : String) (type? : Option TypeName) (elements : List Expr)
      (hes : ∀ e ∈ elements, e.Shaped) : Shaped (.array ⟨x, none⟩ type? elements)
  | function (x : String) (parameters : List Identifier) (body : List Stmt)
      (hparameters : ∀ p ∈ parameters, p.declaredType?.isSome) (hbody : ∀ s ∈ body, Shaped s) :
      Shaped (.function ⟨x, none⟩ parameters body)
  | whileLoop (condition : Expr) (body : List Stmt) (hcondition : condition.Shaped)
      (hbody : ∀ s ∈ body, Shaped s) : Shaped (.whileLoop condition body)
  | ifElse (condition : Expr) (thenBody : List Stmt) (elseBody? : Option (List Stmt))
      (hcondition : condition.Shaped) (hthen : ∀ s ∈ thenBody, Shaped s)
      (helse : ∀ body, elseBody? = some body → ∀ s ∈ body, Shaped s) :
      Shaped (.ifElse condition thenBody elseBody?)
  | forLoop (initializer? : Option Stmt) (condition? increment? : Option Expr) (body : List Stmt)
      (hinitializer : ∀ s, initializer? = some s → Shaped s)
      (hcondition : ∀ e, condition? = some e → e.Shaped ∧ e.IsLoopCondition)
      (hincrement : ∀ e, increment? = some e → e.Shaped) (hbody : ∀ s ∈ body, Shaped s) :
      Shaped (.forLoop initializer? condition? increment? body)
  | switch (subject : Expr) (cases : List Case) (default? : Option (List Stmt))
      (hsubject : subject.Shaped) (hvalues : ∀ value body, .mk value body ∈ cases → value.Shaped)
      (hbodies : ∀ value body, .mk value body ∈ cases → ∀ s ∈ body, Shaped s)
      (hdefault : ∀ body, default? = some body → ∀ s ∈ body, Shaped s) :
      Shaped (.switch subject cases default?)
  | block (body : List Stmt) (hbody : ∀ s ∈ body, Shaped s) : Shaped (.block body)
  | empty : Shaped .empty
  | expr (e : Expr) (he : e.Shaped) : Shaped (.expr e)

/-- What is asked of the meaning of a tree, form by form. -/
def StmtForm.Shaped : (c : StmtForm) → c.Abstract → Prop
  | .statement, s | .nested, s | .conditional, s | .elseIf, s => Stmt.Shaped s
  | .body, ss | .block, ss | .caseBody, ss => ∀ s ∈ (ss : List Stmt), s.Shaped
  | .elsePart, ss? | .defaultPart, ss? => ∀ ss, (ss? : Option (List Stmt)) = some ss →
      ∀ s ∈ ss, s.Shaped
  | .cases, cs => ∀ value body, Case.mk value body ∈ (cs : List Case) →
      value.Shaped ∧ ∀ s ∈ body, s.Shaped

theorem DeclarationTree.shaped (d : DeclarationTree) : d.abstract.Shaped := by
  cases d with
  | initialized type? x e =>
    refine .variable x type? _ ?_
    rintro _ ⟨⟩
    exact e.shaped
  | uninitialized type? x => exact .variable x type? none nofun
  | array type? x es => exact .array x type? _ es.shaped

theorem ForStartTree.shaped {t : ForStartTree} {s : Stmt} (h : t.abstract = some s) :
    s.Shaped := by
  cases t with
  | nothing => cases h
  | declaration d =>
    cases h
    exact d.shaped
  | expr e =>
    cases h
    exact .expr _ e.shaped

/-- The meaning of the tree of a statement has the shape of its form. -/
theorem StmtTree.shaped {c : StmtForm} (t : StmtTree c) : c.Shaped t.abstract := by
  induction t with
  | declaration d => exact d.shaped
  | empty => exact .empty
  | function x ps _ ih =>
    refine .function x _ _ ?_ ih
    intro p hp
    obtain ⟨q, -, rfl⟩ := List.mem_map.1 hp
    rfl
  | whileLoop e _ ih => exact .whileLoop _ _ e.shaped ih
  | forLoop start condition increment _ ih =>
    refine .forLoop _ _ _ _ (fun _ h ↦ start.shaped h) (fun e h ↦ ?_) (fun _ h ↦ increment.shaped h)
      ih
    exact ⟨condition.shaped h, condition.isLoopCondition h⟩
  | switch subject _ _ ihc ihd =>
    refine .switch _ _ _ subject.shaped (fun value body h ↦ ?_) (fun value body h ↦ ?_) ihd
    · exact (ihc value body h).1
    · exact (ihc value body h).2
  | expr e => exact .expr _ e.shaped
  | block _ ih => exact .block _ ih
  | conditional _ ih | nested _ ih | braces _ ih | elseIf _ ih | caseBody _ ih => exact ih
  | nil => exact fun _ h ↦ nomatch h
  | snoc _ _ ihs ih => exact List.forall_mem_append.2 ⟨ihs, List.forall_mem_singleton.2 ih⟩
  | ifElse e _ _ ihb ihe => exact .ifElse _ _ _ e.shaped ihb ihe
  | noElse | noDefault => exact nofun
  | elseBlock _ ih | default _ ih =>
    rintro _ ⟨⟩
    exact ih
  | elseBranch _ ih =>
    rintro _ ⟨⟩
    exact List.forall_mem_singleton.2 ih
  | noCases => exact fun _ _ h ↦ nomatch h
  | addCase _ value _ ihs ihb =>
    intro v body h
    rcases List.mem_append.1 h with h | h
    · exact ihs v body h
    · obtain ⟨⟩ := List.mem_singleton.1 h
      exact ⟨value.shaped, ihb⟩

end SvLang
