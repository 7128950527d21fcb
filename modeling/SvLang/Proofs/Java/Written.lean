import SvLang.Proofs.Analysis.Failure
import SvLang.Proofs.Java.Copies
import SvLang.Proofs.Java.Literal

/-!
# What is written of an analyzed program

Java texts know operations and variables that are not set, but the text of a program that has been
accepted holds neither: an analyzed variable has an initializer, and folding has left no arithmetic
at its root.  So a variable is written on one line of four forms, if its initializer is a number, a
text or a name, and else it is left out.  `compileSource_written` is the main statement.

## What is here

* `WrittenAs` and `WrittenOn`: the line on which a variable is written, form by form, and
  `Expr.LeftOut`: the initializers for which there is none.
* `Value.exists_operation_of_render`: the text of an operation is the text of nothing else.  A
  string can hold the same characters, but not the same quotes.
* `IsClassOf`: what a Java text has to do with the statements of an analyzed program.
-/

set_option autoImplicit false

namespace SvLang

/-! ## Initializers -/

/-- Whether the expression is a number, a text or a name. -/
def Expr.isAtomic : Expr → Bool
  | number .. | text .. | identifier _ => true
  | _ => false

/-- Whether the statement declares a variable with such an initializer. -/
def Stmt.isWritten : Stmt → Bool
  | .variable _ _ (some e) => e.isAtomic
  | _ => false

/-- A variable with this initializer is left out. -/
inductive Expr.LeftOut : Expr → Prop where
  | operation (left : Expr) {op : BinaryOp} (right : Expr) (h : op.isArithmetic = false) :
      LeftOut (binary left op right)
  | unary (op : StepOp) (operand? : Option Expr) : LeftOut (unary op operand?)
  | call (callee : Identifier) (arguments : List Expr) : LeftOut (call callee arguments)
  | ret (value? : Option Expr) : LeftOut (ret value?)

/-- An initializer other than arithmetic is left out if and only if it is no number, no text and no
name. -/
theorem Expr.leftOut_iff {e : Expr} (he : ∀ l a r, e ≠ binary l (.arithmetic a) r) :
    e.LeftOut ↔ e.isAtomic = false := by
  constructor
  · intro h
    cases h <;> rfl
  · intro h
    cases e with
    | binary left op right =>
      refine .operation left right ?_
      cases op with
      | arithmetic a => exact absurd rfl (he left a right)
      | assignment | step | comparison => rfl
    | unary op operand? => exact .unary op operand?
    | call callee arguments => exact .call callee arguments
    | ret value? => exact .ret value?
    | number | text | identifier => cases h

namespace Java

open Lexeme

/-- The type and the text with which an initializer is written. -/
inductive WrittenAs : Expr → VariableType → String → Prop where
  | text (q : Quote) (content : String) : WrittenAs (.text q content) .string (quoted content)
  | whole {x : Float} {n : Int} (h : Binary64.int32? x = some n)
      (hrange : -2147483648 ≤ n ∧ n ≤ 2147483647) :
      WrittenAs (.number .numeric x) .int (toString n)
  | fraction {x : Float} (h : Binary64.int32? x = none) :
      WrittenAs (.number .numeric x) .double (doubleLayout.write x)
  | double {w : Width} (hw : w ≠ .numeric) (x : Float) :
      WrittenAs (.number w x) .double (doubleLayout.write x)
  | name (id : Identifier) : WrittenAs (.identifier id) .int id.name

/-- The line on which a statement is written. -/
inductive WrittenOn : Stmt → String → Prop where
  | variable (id : Identifier) (type? : Option TypeName) {e : Expr} {type : VariableType}
      {value : String} (h : WrittenAs e type value) :
      WrittenOn (.variable id type? (some e)) (settingLine type id.name value)

/-- The value of a number, a text or a name, and how it is written. -/
theorem Value.exists_of_isAtomic {e : Expr} (h : e.isAtomic) :
    ∃ v, ofExpr? e = some v ∧ WrittenAs e v.type v.render := by
  cases e with
  | number w x =>
    cases w with
    | numeric =>
      cases hx : Binary64.int32? x with
      | some n =>
        exact ⟨.int n, by rw [ofExpr?, hx], .whole hx (Binary64.int32?_range hx)⟩
      | none => exact ⟨.double x, by rw [ofExpr?, hx], .fraction hx⟩
    | float | double => exact ⟨.double x, rfl, .double (by decide) x⟩
  | text q content => exact ⟨.string content, rfl, .text q content⟩
  | identifier id => exact ⟨.variable id.name, rfl, .name id⟩
  | binary | unary | call | ret => cases h

/-- An initializer that is left out has no value. -/
theorem Value.ofExpr?_eq_none {e : Expr} (h : e.LeftOut) : ofExpr? e = none := by
  cases h with
  | operation left right hop =>
    rename_i op
    cases op with
    | arithmetic a => cases hop
    | assignment | step | comparison => rfl
  | unary | call | ret => rfl

/-! ## Statements and their lines -/

/-- What a statement is when it has been analyzed: if it declares a variable, then with an
initializer that is no arithmetic. -/
def Settled (s : Stmt) : Prop :=
  ∀ id type? initializer?, s = .variable id type? initializer? →
    ∃ e, initializer? = some e ∧ ∀ l a r, e ≠ .binary l (.arithmetic a) r

/-- A statement that is written is written on the line of its declaration. -/
theorem Declaration.exists_of_isWritten {s : Stmt} (h : s.isWritten) :
    ∃ d, ofStmt? s = some d ∧ WrittenOn s (indented d.render) := by
  rw [Stmt.isWritten.eq_def] at h
  split at h
  · rename_i id type? e
    obtain ⟨v, hv, hwritten⟩ := Value.exists_of_isAtomic h
    refine ⟨⟨v.type, id.name, some v⟩, ?_, .variable id type? hwritten⟩
    rw [ofStmt?, hv]
    rfl
  · cases h

/-- Any other one has no declaration. -/
theorem Declaration.ofStmt?_eq_none {s : Stmt} (hs : Settled s) (h : s.isWritten = false) :
    ofStmt? s = none := by
  cases s with
  | «variable» id type? initializer? =>
    obtain ⟨e, rfl, he⟩ := hs id type? initializer? rfl
    rw [ofStmt?, Value.ofExpr?_eq_none ((Expr.leftOut_iff he).2 h)]
    rfl
  | _ => rfl

/-- Where exactly the elements of one kind have an image, the images stand for them one by one, in
order. -/
theorem forall₂_filterMap {α β γ : Type} {f : α → Option β} {kind : α → Bool} {g : β → γ}
    {R : α → γ → Prop} {as : List α}
    (hsome : ∀ a ∈ as, kind a → ∃ b, f a = some b ∧ R a (g b))
    (hnone : ∀ a ∈ as, kind a = false → f a = none) :
    List.Forall₂ R (as.filter kind) ((as.filterMap f).map g) := by
  induction as with
  | nil => exact .nil
  | cons a as ih =>
    rw [List.forall_mem_cons] at hsome hnone
    cases ha : kind a with
    | true =>
      obtain ⟨b, hb, hR⟩ := hsome.1 ha
      rw [List.filter_cons_of_pos ha, List.filterMap_cons, hb]
      exact .cons hR (ih hsome.2 hnone.2)
    | false =>
      rw [List.filter_cons_of_neg (ne_true_of_eq_false ha), List.filterMap_cons, hnone.1 ha]
      exact ih hsome.2 hnone.2

/-- The statements that are written are written one by one, in order. -/
theorem forall₂_writtenOn {ss : List Stmt} (hss : ∀ s ∈ ss, Settled s) :
    List.Forall₂ WrittenOn (ss.filter Stmt.isWritten)
      ((ss.filterMap Declaration.ofStmt?).map fun d ↦ indented d.render) :=
  forall₂_filterMap (fun _ _ ↦ Declaration.exists_of_isWritten)
    fun s hs ↦ Declaration.ofStmt?_eq_none (hss s hs)

/-! ## The text of an operation -/

/-- No string literal is the beginning of a longer text that is one. -/
theorem eq_nil_of_quotedChars_append {cs ds rest : List Char}
    (h : quotedChars cs = quotedChars ds ++ rest) : rest = [] := by
  have hpieces : ∀ es behind : List Char, readString? false
      (pieces .even (quotedChars es ++ behind)).tail =
        some ((es.flatMap escaped).map .ofChar, pieces .even behind) := by
    intro es behind
    rw [pieces_quotedChars_append]
    exact readString?_flatMap_escaped es _
  have hbehind := hpieces cs []
  rw [List.append_nil, h, hpieces, Option.some.injEq, Prod.mk.injEq] at hbehind
  have hwritten := congrArg written hbehind.2
  rwa [written_pieces, written_pieces] at hwritten

namespace Value

/-- What is neither a string nor an operation is written with the characters of words and numbers
alone. -/
theorem render_cases {v : Value} (hv : ∀ x ∈ v.names, IsWord x) :
    (∃ content, v = .string content) ∨ (∃ l op r, v = .operation l op r) ∨
      v.grouped v.render = v.render ∧ ∀ c, ¬ isNumberPart c → c ∉ v.render.toList := by
  cases v with
  | string content => exact .inl ⟨content, rfl⟩
  | operation l op r => exact .inr (.inl ⟨l, op, r, rfl⟩)
  | int n => exact .inr (.inr ⟨rfl, fun c ↦ not_mem_of_isNumberText (isNumberText_int n)⟩)
  | double x => exact .inr (.inr ⟨rfl, fun c ↦ not_mem_of_isNumberText (isNumberText_write x)⟩)
  | «variable» name =>
    refine .inr (.inr ⟨rfl, fun c hc ↦ not_mem_of_isWord (hv name List.mem_cons_self) ?_⟩)
    intro hpart
    exact hc (by simp [isNumberPart, hpart])

/-- The text of an operation is no string literal. -/
theorem quoted_ne_render {l r : Value} {op : ArithmeticOp} (hl : ∀ x ∈ l.names, IsWord x)
    (content : String) : quoted content ≠ (operation l op r).render := by
  intro h
  have htext : '\x22' :: (content.toList.flatMap escaped ++ ['\x22']) =
      (l.grouped l.render).toList ++ ' ' :: ((BinaryOp.arithmetic op).spelling.toList ++
        ' ' :: (r.grouped r.render).toList) := by
    have hchars := congrArg String.toList h
    simpa [quoted, quotedChars, render] using hchars
  rcases render_cases hl with ⟨content', rfl⟩ | ⟨l', op', r', rfl⟩ | ⟨hgrouped, hparts⟩
  · have hlonger : quotedChars content.toList = quotedChars content'.toList ++
        ' ' :: ((BinaryOp.arithmetic op).spelling.toList ++
          ' ' :: (r.grouped r.render).toList) := by
      simpa [quotedChars, grouped, render, quoted] using htext
    cases eq_nil_of_quotedChars_append hlonger
  · simp [grouped] at htext
  · rw [hgrouped] at htext
    have hquote := hparts '\x22' (by decide)
    cases hchars : l.render.toList with
    | nil => simp [hchars] at htext
    | cons c cs => simp_all

/-- The text of an operation is the text of operations alone. -/
theorem exists_operation_of_render {v l r : Value} {op : ArithmeticOp}
    (hv : ∀ x ∈ v.names, IsWord x) (hl : ∀ x ∈ l.names, IsWord x)
    (h : v.render = (operation l op r).render) : ∃ l' op' r', v = .operation l' op' r' := by
  rcases render_cases hv with ⟨content, rfl⟩ | hoperation | ⟨-, hparts⟩
  · exact absurd h (quoted_ne_render hl content)
  · exact hoperation
  · have hspace := hparts ' ' (by decide)
    rw [h] at hspace
    simp [render] at hspace

end Value

/-! ## Lines that do not occur -/

namespace Declaration

variable {d : Declaration} {v : Value} {type : VariableType} {x : String}

/-- A variable that is set is not written as one that is not. -/
theorem render_ne_unset (hd : d.Named) (hv : d.value? = some v) (hx : IsWord x) :
    d.render ≠ type.spelling ++ " " ++ x ++ ";" := by
  intro h
  have htext : lineText d.type d.name d.tail = lineText type x [';'] := by
    rw [← d.toList_render, h]
    simp [lineText]
  obtain ⟨-, -, htail⟩ := lineText_inj hd.1 hx d.head?_tail (by rintro c ⟨⟩; decide) htext
  rw [tail, hv] at htail
  cases htail

/-- A variable that is set to no operation is not written as if it were. -/
theorem render_ne_operation (hd : d.Named) (hv : d.value? = some v)
    (hne : ∀ l op r, v ≠ .operation l op r) (hx : IsWord x) {l r : Value} (op : ArithmeticOp)
    (hl : ∀ y ∈ l.names, IsWord y) :
    d.render ≠ type.spelling ++ " " ++ x ++ " = " ++ (Value.operation l op r).render ++ ";" := by
  intro h
  have htext : lineText d.type d.name d.tail =
      lineText type x (settingTail (Value.operation l op r).render) := by
    rw [← d.toList_render, h]
    simp [lineText, settingTail]
  obtain ⟨-, -, htail⟩ := lineText_inj hd.1 hx d.head?_tail (by rintro c ⟨⟩; decide) htext
  rw [tail, hv] at htail
  have hrender : v.render = (Value.operation l op r).render := by
    simp only [settingTail, List.cons.injEq, true_and] at htail
    exact String.toList_inj.1 (List.append_cancel_right htail)
  obtain ⟨l', op', r', hoperation⟩ := Value.exists_operation_of_render (hd.2 v hv) hl hrender
  exact hne l' op' r' hoperation

/-- An analyzed variable is set, and to no operation. -/
theorem exists_value_of_settled {s : Stmt} (hs : Settled s) (h : ofStmt? s = some d) :
    ∃ v, d.value? = some v ∧ ∀ l op r, v ≠ .operation l op r := by
  cases s with
  | «variable» id type? initializer? =>
    obtain ⟨e, rfl, he⟩ := hs id type? initializer? rfl
    obtain ⟨v, hv, rfl⟩ := Option.map_eq_some_iff.1 h
    refine ⟨v, rfl, ?_⟩
    rintro l op r rfl
    rw [Value.ofExpr?.eq_def] at hv
    split at hv
    · split at hv <;> cases hv
    · cases hv
    · cases hv
    · cases hv
    · exact he _ _ _ rfl
    · cases hv
  | _ => cases h

end Declaration

/-! ## The text of an accepted program -/

/-- The Java text of a program with these statements, and the lines of its variables. -/
structure IsClassOf (java : String) (written : List String) (body : List Stmt) : Prop where
  /-- The text is the header, the lines of the variables, and the footer. -/
  text : java = header ++ String.join (written.map (· ++ "\n")) ++ footer
  /-- What is written of a variable is one line of the text. -/
  lines : lines java = headerLines ++ written ++ footerLines
  /-- One line is written for each variable with a number, a text or a name for its initializer, in
  the order of the statements. -/
  writtenOn : List.Forall₂ WrittenOn (body.filter Stmt.isWritten) written
  /-- Every variable has an initializer, and this decides whether the variable is left out. -/
  leftOut : ∀ id type? initializer?, .variable id type? initializer? ∈ body →
    ∃ e, initializer? = some e ∧
      ((Stmt.variable id type? initializer?).isWritten = false ↔ e.LeftOut)
  /-- No line declares a variable without setting it. -/
  isSet : ∀ line ∈ Java.lines java, ∀ (type : VariableType) (x : String), IsWord x →
    line ≠ indented (type.spelling ++ " " ++ x ++ ";")
  /-- No line sets a variable to an operation. -/
  noOperation : ∀ line ∈ Java.lines java, ∀ type x l op r, IsWord x →
    (∀ y ∈ (Value.operation l op r).names, IsWord y) →
      line ≠ settingLine type x (Value.operation l op r).render

/-- An analyzed statement is settled. -/
theorem settled_of_analyzeSource {source : String} {a : AnalyzedProgram}
    (h : analyzeSource source = .ok a) : ∀ s ∈ a.program.body, Settled s := by
  intro s hs id type? initializer? hvariable
  obtain ⟨r, t, herror, rfl⟩ := exists_analyze_of_mem h hs
  exact Stmt.initializer_of_analyze herror hvariable

/-- **The text of an accepted source.**  It is a class whose lines, between header and footer, are
those of the variables with a number, a text or a name for their analyzed initializer, in the order
in which the source declares them.  Every other variable is left out: it is set to an operation that
is no arithmetic, to a step, to a call or to a `return`. -/
theorem compileSource_written {source java : String} (h : compileSource source = .ok java) :
    ∃ p a written, parseSource source = .ok p ∧ analyzeSource source = .ok a ∧
      List.Forall₂ Stmt.PartlyFolded p.body a.program.body ∧
      IsClassOf java written a.program.body := by
  obtain ⟨a, ha, rfl⟩ := compileSource_eq_ok_iff.1 h
  obtain ⟨p, hp, herror, hprogram, -⟩ := analyzeSource_eq_ok_iff.1 ha
  have hsettled := settled_of_analyzeSource ha
  -- Each line comes from a declaration, and that from an analyzed statement.
  have hdeclarations : ∀ d ∈ declarations a.program,
      d.Named ∧ ∃ v, d.value? = some v ∧ ∀ l op r, v ≠ .operation l op r := by
    intro d hd
    obtain ⟨s, hs, hsd⟩ := List.mem_filterMap.1 hd
    exact ⟨(named_of_analyzeSource ha s hs).declaration hsd,
      Declaration.exists_value_of_settled (hsettled s hs) hsd⟩
  have hnamed : ∀ d ∈ declarations a.program, d.Named := fun d hd ↦ (hdeclarations d hd).1
  have hline : ∀ text, indented text ∈ lines (emit a.program) →
      ∃ d ∈ declarations a.program, d.render = text := by
    intro text hmem
    obtain ⟨i, hi⟩ := List.mem_iff_getElem?.1 hmem
    obtain ⟨k, d, -, hk, hd⟩ := (getElem?_lines_mainClass hnamed).1 hi
    exact ⟨d, List.mem_of_getElem? hk, hd⟩
  refine ⟨p, a, (declarations a.program).map fun d : Declaration ↦ indented d.render, hp, ha, ?_,
    ?_, lines_mainClass hnamed, forall₂_writtenOn hsettled, ?_, ?_, ?_⟩
  · rw [hprogram]
    exact (Program.analyzes herror).partlyFolded
  · rw [emit, mainClass, List.map_map]
    rfl
  · intro id type? initializer? hmem
    obtain ⟨e, rfl, he⟩ := hsettled _ hmem id type? initializer? rfl
    exact ⟨e, rfl, (Expr.leftOut_iff he).symm⟩
  · rintro line hmem type x hx rfl
    obtain ⟨d, hd, hrender⟩ := hline _ hmem
    obtain ⟨hd, v, hv, -⟩ := hdeclarations d hd
    exact Declaration.render_ne_unset hd hv hx hrender
  · rintro line hmem type x l op r hx hnames rfl
    obtain ⟨d, hd, hrender⟩ := hline _ hmem
    obtain ⟨hd, v, hv, hne⟩ := hdeclarations d hd
    rw [Value.names, List.forall_mem_append] at hnames
    exact Declaration.render_ne_operation hd hv hne hx op hnames.1 hrender

/-- A class with a text, a sum, a name and a number, and without a comparison and a call. -/
theorem compileSource_written_mixed :
    ∃ source java, compileSource source = .ok java ∧ (lines java).length = 9 ∧
      ∃ p a written, parseSource source = .ok p ∧ analyzeSource source = .ok a ∧
        List.Forall₂ Stmt.PartlyFolded p.body a.program.body ∧
        IsClassOf java written a.program.body := by
  have hcompile : compileSource
      "sv s = \"x\"; sv n = 1 + 2; sv c = n < 2; sv m = n; sv f = g(1); sv d = 1.5;" = .ok
        (mainClass [⟨.string, "s", some (.string "x")⟩, ⟨.int, "n", some (.int 3)⟩,
          ⟨.int, "m", some (.variable "n")⟩, ⟨.double, "d", some (.double 1.5)⟩]) :=
    eq_ok_of_toOption (by decide +kernel)
  exact ⟨_, _, hcompile, by decide +kernel, compileSource_written hcompile⟩

end Java

end SvLang
