import SvLang.Proofs.Grammar.Congruence
import SvLang.Proofs.Grammar.Shape
import SvLang.Proofs.Grammar.Soundness.Statement

/-!
# Only concrete programs are read

The main statement is `exists_tree_of_parse`: what the parser accepts is, up to the first token that
ends the input, what a concrete syntax tree of a program writes, and what it returns is what the
tree means.  So it loses no token, uses none twice, and accepts nothing outside the grammar.

It remains to see where the tree ends.  The loop over the statements of a program stops in front of
a token that ends the input, and no tree writes such a token.
-/

set_option autoImplicit false

namespace SvLang

open SvLang.Parser

/-! ## No tree writes the end of the input -/

section

open Terminal

theorem ExprTree.kind_ne_eof {c : ExprForm} (t : ExprTree c) :
    ∀ x ∈ t.terminals, x.kind ≠ .eof := by
  induction t with
  | _ => simp_all [terminals, ofSymbol, ofName, ofKeyword, or_imp]

theorem DeclarationTree.kind_ne_eof (d : DeclarationTree) : ∀ x ∈ d.terminals, x.kind ≠ .eof := by
  have hword : ∀ type?, (ofDeclaredType type?).kind ≠ .eof := by rintro (_ | _) <;> exact nofun
  cases d with
  | initialized _ _ e =>
    have he := e.kind_ne_eof
    simp_all [terminals, ofSymbol, ofName, or_imp]
  | uninitialized => simp_all [terminals, ofSymbol, ofName]
  | array _ _ es =>
    have hes := es.kind_ne_eof
    simp_all [terminals, ofSymbol, ofName, or_imp]

theorem ParameterTree.kind_ne_eof (ps : List ParameterTree) :
    ∀ x ∈ listTerminals ps, x.kind ≠ .eof := by
  have htail : ∀ ps, ∀ x ∈ tailTerminals ps, x.kind ≠ .eof := by
    intro ps
    induction ps with
    | nil => simp [tailTerminals]
    | cons p ps ih => simp_all [tailTerminals, terminals, ofSymbol, ofName]
  cases ps with
  | nil => simp [listTerminals]
  | cons p ps =>
    have hps := htail ps
    simp_all [listTerminals, terminals, ofName]

theorem ForStartTree.kind_ne_eof (t : ForStartTree) : ∀ x ∈ t.terminals, x.kind ≠ .eof := by
  cases t with
  | nothing => exact fun x hx ↦ by simp_all [terminals, ofSymbol]
  | declaration d => exact d.kind_ne_eof
  | expr e =>
    have he := e.kind_ne_eof
    simp_all [terminals, ofSymbol, or_imp]

theorem ForConditionTree.kind_ne_eof (t : ForConditionTree) :
    ∀ x ∈ t.terminals, x.kind ≠ .eof := by
  cases t with
  | nothing => exact nofun
  | name => simp [terminals, ofName]
  | compare _ _ _ bound =>
    have hbound := bound.kind_ne_eof
    simp_all [terminals, ofSymbol, ofName]

theorem ForIncrementTree.kind_ne_eof (t : ForIncrementTree) :
    ∀ x ∈ t.terminals, x.kind ≠ .eof := by
  cases t with
  | nothing => exact nofun
  | step => simp [terminals, ofSymbol, ofName]
  | expr e => exact e.kind_ne_eof

theorem StmtTree.kind_ne_eof {c : StmtForm} (t : StmtTree c) :
    ∀ x ∈ t.terminals, x.kind ≠ .eof := by
  induction t with
  | declaration d => exact d.kind_ne_eof
  | function _ ps =>
    have hps := ParameterTree.kind_ne_eof ps
    simp_all [terminals, ofSymbol, ofName, ofKeyword, or_imp]
  | forLoop start condition increment =>
    have hstart := start.kind_ne_eof
    have hcondition := condition.kind_ne_eof
    have hincrement := increment.kind_ne_eof
    simp_all [terminals, ofSymbol, ofKeyword, or_imp]
  | whileLoop e | switch e | ifElse e | addCase _ e =>
    have he := e.kind_ne_eof
    simp_all [terminals, ofSymbol, ofKeyword, or_imp]
  | expr e semicolon =>
    have he := e.kind_ne_eof
    cases semicolon <;> simp_all [terminals, ofSymbol, or_imp]
  | _ => simp_all [terminals, ofSymbol, ofKeyword, or_imp]

end

/-! ## Programs -/

/-- The tokens in front of the first one that ends the input, if that is where `rest` starts. -/
theorem takeWhile_kind_ne_eof {used rest : List Token} (hused : ∀ t ∈ used, t.kind ≠ .eof)
    (hrest : (front rest).kind = .eof) :
    (used ++ rest).takeWhile (fun t ↦ t.kind ≠ .eof) = used := by
  rw [List.takeWhile_append_of_pos (by simpa using hused)]
  cases rest with
  | nil => simp
  | cons t rest =>
    have ht : t.kind = .eof := hrest
    simp [ht]

/-- What is read within a limit is what a tree writes that keeps to the limit. -/
theorem exists_tree_of_parseWithin {limit : Nat} {ts : List Token} {p : Program}
    (h : parseWithin limit ts = .ok p) :
    ∃ t : StmtTree .body,
      (ts.takeWhile fun t ↦ t.kind ≠ .eof).map Token.terminal = t.terminals ∧
        t.levels ≤ limit ∧ p = ⟨t.abstract⟩ := by
  obtain ⟨body⟩ := p
  obtain ⟨rest, hbody⟩ := parseWithin_eq_ok.1 h
  obtain ⟨used, rfl, t, rfl, ht, hl⟩ := (Rules.sound_rules limit limit).body _ _ _ _ hbody
  have hrest : (front rest).kind = .eof := of_decide_eq_true (stop_of_manyUntil hbody)
  have hused : ∀ x ∈ used, x.kind ≠ .eof := by
    intro x hx
    have hterminal := t.kind_ne_eof x.terminal
    rw [ht] at hterminal
    exact hterminal (List.mem_map_of_mem hx)
  refine ⟨t, ?_, hl, rfl⟩
  rw [takeWhile_kind_ne_eof hused hrest, ht]

/-- **Parse, then print.**  Whatever tokens are accepted, those in front of the first one that ends
the input are what a concrete syntax tree writes, each used once and in order.  The tree nests no
deeper than `maxNesting`, its meaning is what is returned, and that has the shape of programs that
are written. -/
theorem exists_tree_of_parse {ts : List Token} {p : Program} (h : parse ts = .ok p) :
    ∃ t : StmtTree .body,
      (ts.takeWhile fun t ↦ t.kind ≠ .eof).map Token.terminal = t.terminals ∧
        t.levels ≤ maxNesting ∧ p = ⟨t.abstract⟩ ∧ ∀ s ∈ p.body, s.Shaped := by
  obtain ⟨t, hts, hl, rfl⟩ := exists_tree_of_parseWithin h
  exact ⟨t, hts, hl, rfl, t.shaped⟩

/-- The text `x++` in front of an end of the input that is followed by more. -/
theorem exists_tree_of_parse_step :
    ∃ p, parse [⟨.identifier, "x", ⟨0, 1⟩⟩, ⟨.symbol .plusPlus, "++", ⟨1, 3⟩⟩,
        ⟨.eof, "", ⟨3, 3⟩⟩, ⟨.symbol .closeParen, ")", ⟨3, 4⟩⟩] = .ok p ∧
      ∃ t : StmtTree .body,
        t.terminals = [.ofName "x", .ofSymbol .plusPlus] ∧ t.levels ≤ maxNesting ∧
          p = ⟨t.abstract⟩ ∧ ∀ s ∈ p.body, s.Shaped := by
  have haccepted : (parse [⟨.identifier, "x", ⟨0, 1⟩⟩, ⟨.symbol .plusPlus, "++", ⟨1, 3⟩⟩,
      ⟨.eof, "", ⟨3, 3⟩⟩, ⟨.symbol .closeParen, ")", ⟨3, 4⟩⟩]).toBool := by decide +kernel
  revert haccepted
  generalize hp : parse _ = r
  cases r with
  | error e => exact nofun
  | ok p =>
    intro _
    obtain ⟨t, ht, hl, hbody, hshaped⟩ := exists_tree_of_parse hp
    exact ⟨p, rfl, t, ht.symm, hl, hbody, hshaped⟩

end SvLang
