import SvLang.Compilation
import SvLang.Proofs.Analysis.Run
import SvLang.Proofs.Grammar.Completeness
import SvLang.Proofs.Lexing.Text

/-!
# Sources and what they write

The stages of a compilation in terms of each other, and the first two of them taken together: a text
that writes the lexemes of a concrete syntax tree is read as what the tree means
(`parseSource_of_lexes`).
-/

set_option autoImplicit false

namespace SvLang

/-! ## Stage by stage -/

theorem mapError_error {ε ε' α : Type} (f : ε → ε') (e : ε) :
    (Except.error e : Except ε α).mapError f = .error (f e) := rfl

theorem mapError_ok {ε ε' α : Type} (f : ε → ε') (a : α) :
    (Except.ok a : Except ε α).mapError f = .ok a := rfl

theorem parseSource_eq_ok_iff {source : String} {p : Program} :
    parseSource source = .ok p ↔ ∃ ts, tokenize source = .ok ts ∧ parse ts = .ok p := by
  rw [parseSource]
  cases tokenize source with
  | error e => simp [mapError_error, bind, Except.bind]
  | ok ts =>
    cases hp : parse ts <;> simp [mapError_error, mapError_ok, bind, Except.bind, hp]

theorem analyzeSource_eq_ok_iff {source : String} {a : AnalyzedProgram} :
    analyzeSource source = .ok a ↔ ∃ p, parseSource source = .ok p ∧
      (p.analyze .empty).error? = none ∧ a.program = (p.analyze .empty).value ∧
        a.symbols = (p.analyze .empty).symbols := by
  rw [analyzeSource]
  cases parseSource source with
  | error e => simp [bind, Except.bind]
  | ok p =>
    simp only [bind, Except.bind, Except.ok.injEq, exists_eq_left']
    cases (p.analyze .empty).error? with
    | some e => simp [throw, throwThe, MonadExceptOf.throw]
    | none =>
      obtain ⟨program, symbols⟩ := a
      simp [pure, Except.pure, eq_comm]

theorem compileSource_eq_ok_iff {source java : String} :
    compileSource source = .ok java ↔
      ∃ a, analyzeSource source = .ok a ∧ Java.emit a.program = java := by
  rw [compileSource]
  cases analyzeSource source <;> simp [bind, Except.bind, pure, Except.pure]

/-- A source is refused by the first stage that finds an error, and all before it have accepted. -/
theorem compileSource_eq_error_iff {source : String} {e : CompileError} :
    compileSource source = .error e ↔
      (∃ e', tokenize source = .error e' ∧ e = .lex e') ∨
      (∃ ts e', tokenize source = .ok ts ∧ parse ts = .error e' ∧ e = .parse e') ∨
      ∃ p e', parseSource source = .ok p ∧ (p.analyze .empty).error? = some e' ∧
        e = .semantic e' := by
  rw [compileSource, analyzeSource, parseSource]
  cases tokenize source with
  | error e' => simp [mapError_error, bind, Except.bind, eq_comm]
  | ok ts =>
    cases hp : parse ts with
    | error e' => simp [mapError_error, mapError_ok, bind, Except.bind, hp, eq_comm]
    | ok p =>
      cases ha : (p.analyze .empty).error? <;>
        simp [mapError_ok, bind, Except.bind, hp, ha, pure, Except.pure, throw, throwThe,
          MonadExceptOf.throw, eq_comm]

/-- Each statement of an analyzed program is what one of the program is rewritten to. -/
theorem exists_analyze_of_mem {source : String} {a : AnalyzedProgram}
    (h : analyzeSource source = .ok a) {s' : Stmt} (hs' : s' ∈ a.program.body) :
    ∃ (s : Stmt) (t : SymbolTable), (s.analyze t).error? = none ∧ (s.analyze t).value = s' := by
  obtain ⟨p, -, herror, hprogram, -⟩ := analyzeSource_eq_ok_iff.1 h
  rw [hprogram] at hs'
  obtain ⟨s, -, t, hs⟩ := (Program.analyzes herror).exists_of_mem hs'
  exact ⟨s, t, hs⟩

/-! ## From characters to programs -/

/-- A text that writes the lexemes of a concrete syntax tree is read as what the tree means. -/
theorem parseSource_of_lexes {source : String} {ls : List Lexeme} {t : StmtTree .body}
    (hls : Lexes source.toList ls) (ht : ls.map Lexeme.terminal = t.terminals) (hs : t.Settled)
    (hl : t.levels ≤ maxNesting) : parseSource source = .ok ⟨t.abstract⟩ := by
  obtain ⟨ts, size, htokenize, hts⟩ := terminals_of_lexes hls
  rw [ht] at hts
  exact parseSource_eq_ok_iff.2 ⟨_, htokenize, parseWithin_terminals hl hs hts rfl⟩

/-- The words in front of the value that a variable is set to. -/
theorem Lexes.declaration {x : String} (hx : Lexeme.IsName x) {cs : List Char} {ls : List Lexeme}
    (h : Lexes cs ls) :
    Lexes ("sv ".toList ++ (x.toList ++ (" = ".toList ++ cs)))
      (.word ['s', 'v'] :: .word x.toList :: .symbol .assign :: ls) := by
  have hsv : (Lexeme.word ['s', 'v']).WellFormed :=
    ⟨'s', ['v'], rfl, by decide, by simp [isWordPart]⟩
  have hword : ∀ letters rest, (Lexeme.word letters).EndsBefore (' ' :: rest) := by
    rintro letters rest d ⟨⟩
    decide
  have hassign : (Lexeme.symbol .assign).EndsBefore (' ' :: cs) :=
    ⟨by rintro c ⟨⟩ d ⟨⟩; rfl, by simp⟩
  have hvalue := Lexes.space (Lexeme.wellFormed_symbol _) hassign (h.blank (c := ' ') rfl)
  exact .next hsv (hword _ _) (.space hx.1 (hword _ _) hvalue)

/-- A declaration that sets a variable is read as such if the text of the value writes a tree, and
as the meaning of that tree. -/
theorem parseSource_declaration {x text : String} (hx : Lexeme.IsName x) {ls : List Lexeme}
    {t : ExprTree (.tier .additive)}
    (hls : Lexes (text.toList ++ [';']) (ls ++ [.symbol .semicolon]))
    (ht : ls.map Lexeme.terminal = t.terminals) (hs : t.Settled (.symbol .semicolon))
    (hl : t.levels + 2 ≤ maxNesting) :
    parseSource ("sv " ++ x ++ " = " ++ text ++ ";") =
      .ok ⟨[.variable ⟨x, none⟩ none (some t.abstract)]⟩ := by
  let tree : StmtTree .body :=
    .snoc .nil (.nested (.declaration (.initialized none x (.whole (.lift rfl t)))))
  have htext : ("sv " ++ x ++ " = " ++ text ++ ";").toList =
      "sv ".toList ++ (x.toList ++ (" = ".toList ++ (text.toList ++ [';']))) := by
    simp
  have hlexes := hls.declaration hx
  rw [← htext] at hlexes
  refine parseSource_of_lexes (t := tree) hlexes ?_ ⟨trivial, hs⟩ ?_
  · simp only [tree, StmtTree.terminals, DeclarationTree.terminals, ExprTree.terminals, ← ht,
      List.map_cons, List.map_append, Lexeme.terminal_of_isName hx]
    rfl
  · show max 0 (t.levels + 1 + 1) ≤ maxNesting
    rwa [Nat.zero_max]

end SvLang
