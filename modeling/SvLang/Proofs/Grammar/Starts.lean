import SvLang.Proofs.Grammar.Leads

/-!
# What trees start with

The first token of a tree decides which rule of the grammar is taken, so it matters which tokens
that can be: those that start an expression, a statement, or a declaration.
-/

set_option autoImplicit false

namespace SvLang

/-! ## Expressions -/

/-- Whether a token of this kind starts an expression. -/
def TokenKind.startsExpr : TokenKind → Bool
  | identifier | number _ | text _ | keyword .returnWord => true
  | symbol .openParen | symbol .plusPlus | symbol .minusMinus => true
  | _ => false

/-- Every expression starts with a token that starts expressions. -/
theorem ExprTree.startsExpr_firstKind {c : ExprForm} (t : ExprTree c) (hc : c ≠ .arguments) :
    ∀ k, (firstKind t.terminals k).startsExpr := by
  induction t with
  | name | call | number | quoted | group | ret | retNothing => exact fun k ↦ rfl
  | stepBefore op => cases op <;> exact fun k ↦ rfl
  | lift _ e ih => exact ih (by simp)
  | operand e ih | whole e ih | one e ih => exact ih (by simp)
  | binary _ left _ _ right ihl =>
    intro k
    rw [terminals, firstKind_append]
    exact ihl (by simp) _
  | stepBehind left _ ihl =>
    intro k
    rw [terminals, firstKind_append]
    exact ihl (by simp) _
  | more es e ihs =>
    intro k
    rw [terminals, firstKind_append]
    exact ihs (by simp) _
  | noArguments | arguments => exact absurd rfl hc

/-! ## Statements -/

/-- Whether a token of this kind starts a statement. -/
def TokenKind.startsStmt (k : TokenKind) : Bool :=
  match k with
  | typeName _ | symbol .semicolon | symbol .openBrace => true
  | keyword .svWord | keyword .functionWord | keyword .whileWord | keyword .ifWord => true
  | keyword .forWord | keyword .switchWord => true
  | k => k.startsExpr

theorem startsStmt_of_startsExpr {k : TokenKind} (h : k.startsExpr) : k.startsStmt := by
  cases k with
  | symbol s => cases s <;> first | rfl | exact h
  | keyword w => cases w <;> first | rfl | exact h
  | typeName => rfl
  | _ => exact h

theorem DeclarationTree.startsStmt_firstKind (d : DeclarationTree) (k : TokenKind) :
    (firstKind d.terminals k).startsStmt := by
  cases d with
  | initialized type? | uninitialized type? | array type? => cases type? <;> rfl

/-- Every statement starts with a token that starts statements. -/
theorem StmtTree.startsStmt_firstKind {c : StmtForm} (t : StmtTree c)
    (hc : c = .statement ∨ c = .nested ∨ c = .block ∨ c = .conditional) :
    ∀ k, (firstKind t.terminals k).startsStmt := by
  induction t with
  | declaration d => exact d.startsStmt_firstKind
  | expr e semicolon =>
    intro k
    rw [terminals, firstKind_append]
    exact startsStmt_of_startsExpr (e.startsExpr_firstKind (by simp) _)
  | conditional c ih => exact ih (by simp)
  | block b ih => exact ih (by simp)
  | nested s ih => exact ih (by simp)
  | empty | function | whileLoop | forLoop | switch | braces | ifElse => exact fun _ ↦ rfl
  | _ => simp at hc

/-! ## Declarations -/

/-- Whether a token of this kind starts a declaration. -/
def TokenKind.startsDeclaration : TokenKind → Bool
  | typeName _ | keyword .svWord => true
  | _ => false

theorem not_startsDeclaration {k : TokenKind} (h : k.startsExpr) : ¬ k.startsDeclaration := by
  cases k with
  | typeName => cases h
  | keyword w => cases w <;> first | exact Bool.false_ne_true | exact absurd h Bool.false_ne_true
  | _ => exact Bool.false_ne_true

/-- A statement that starts as a declaration is one. -/
theorem StmtTree.eq_declaration (s : StmtTree .statement)
    (h : (firstKind s.terminals .eof).startsDeclaration) : ∃ d, s = .declaration d := by
  cases s with
  | declaration d => exact ⟨d, rfl⟩
  | expr e semicolon =>
    rw [terminals, firstKind_append] at h
    exact absurd h (not_startsDeclaration (e.startsExpr_firstKind (by simp) _))
  | conditional c =>
    cases c
    cases h
  | block b =>
    cases b
    cases h
  | empty | function | whileLoop | forLoop | switch => cases h

/-- A statement is never empty. -/
theorem StmtTree.exists_cons_terminals (s : StmtTree .statement) :
    ∃ x u, s.terminals = x :: u := by
  have h := s.startsStmt_firstKind (.inl rfl) .eof
  revert h
  cases s.terminals with
  | nil => exact fun h ↦ nomatch h
  | cons x u => exact fun _ ↦ ⟨x, u, rfl⟩

end SvLang
