import SvLang.Proofs.Grammar.Completeness.Statement

/-!
# Every concrete program is read back

The main statement is `parse_terminals`: tokens that write a concrete syntax tree of a program are
accepted, and what is read is what the tree means.  The conditions on the tree are that it is
`Settled` — the places where the grammar is ambiguous on paper — and that it keeps to the limit of
nesting.  It holds whatever comes behind the token that ends the input.
-/

set_option autoImplicit false

namespace SvLang

open SvLang.Parser

/-- Tokens that write a program are read back within any limit that the program keeps to. -/
theorem parseWithin_terminals {limit : Nat} {t : StmtTree .body} (hl : t.levels ≤ limit)
    (hs : t.Settled) {ts rest : List Token} (hts : ts.map Token.terminal = t.terminals)
    (hrest : (front rest).kind = .eof) :
    parseWithin limit (ts ++ rest) = .ok ⟨t.abstract⟩ := by
  have hbody := (t.readBy limit hl hs).leads_body (k := .eof) (by simp) (· = .eof)
    (fun l hl ↦ by rw [of_decide_eq_true hl]; decide) (by simp) ts rest hts hrest
  rw [parseWithin, hbody]
  rfl

/-- **Print, then parse.**  Take any concrete syntax tree of a program whose `return`s keep their
distance, whose expression statements have their semicolons, and which nests no deeper than
`maxNesting`.  Tokens that write the tree, at the end of the input or in front of a token that ends
it, are accepted as the program that the tree means. -/
theorem parse_terminals (t : StmtTree .body) (hs : t.Settled) (hl : t.levels ≤ maxNesting)
    (ts rest : List Token) (hts : ts.map Token.terminal = t.terminals)
    (hrest : (front rest).kind = .eof) : parse (ts ++ rest) = .ok ⟨t.abstract⟩ :=
  parseWithin_terminals hl hs hts hrest

/-- The text `for (; i < n; i++) { x++; return; }` in front of the end of the input. -/
theorem parse_terminals_loop :
    parse
      ([⟨.keyword .forWord, "for", ⟨0, 3⟩⟩, ⟨.symbol .openParen, "(", ⟨4, 5⟩⟩,
        ⟨.symbol .semicolon, ";", ⟨5, 6⟩⟩, ⟨.identifier, "i", ⟨7, 8⟩⟩,
        ⟨.symbol .less, "<", ⟨9, 10⟩⟩, ⟨.identifier, "n", ⟨11, 12⟩⟩,
        ⟨.symbol .semicolon, ";", ⟨12, 13⟩⟩, ⟨.identifier, "i", ⟨14, 15⟩⟩,
        ⟨.symbol .plusPlus, "++", ⟨15, 17⟩⟩, ⟨.symbol .closeParen, ")", ⟨17, 18⟩⟩,
        ⟨.symbol .openBrace, "\x7b", ⟨19, 20⟩⟩, ⟨.identifier, "x", ⟨21, 22⟩⟩,
        ⟨.symbol .plusPlus, "++", ⟨22, 24⟩⟩, ⟨.symbol .semicolon, ";", ⟨24, 25⟩⟩,
        ⟨.keyword .returnWord, "return", ⟨26, 32⟩⟩, ⟨.symbol .semicolon, ";", ⟨32, 33⟩⟩,
        ⟨.symbol .closeBrace, "\x7d", ⟨34, 35⟩⟩] ++ [⟨.eof, "", ⟨35, 35⟩⟩]) =
      .ok ⟨[.forLoop none
        (some (.binary (.identifier ⟨"i", none⟩) (.comparison .less) (.identifier ⟨"n", none⟩)))
        (some (.unary .increment (some (.identifier ⟨"i", none⟩))))
        [.expr (.binary (.identifier ⟨"x", none⟩) (.step .increment) (.unary .increment none)),
          .expr (.ret none)]]⟩ :=
  parse_terminals
    (.snoc .nil (.nested (.forLoop .nothing
      (.compare "i" .less (.inl rfl) (.lift rfl (.lift rfl (.name "n")))) (.step "i" .increment)
      (.braces (.snoc (.snoc .nil
        (.nested (.expr (.whole (.lift rfl
          (.stepBehind (.lift rfl (.lift rfl (.name "x"))) .increment))) true)))
        (.nested (.expr (.whole (.lift rfl (.lift rfl (.lift rfl .retNothing)))) true)))))))
    (by simp [StmtTree.Settled, ForStartTree.Settled, ForConditionTree.Settled,
      ForIncrementTree.Settled, ExprTree.Settled])
    (by decide) _ _ rfl rfl

end SvLang
