import SvLang.Proofs.Calculator
import SvLang.Proofs.Grammar.Height
import SvLang.Proofs.Numeric.Whole

/-!
# Java values are read back

A value is written for Java, but most of what is written is in the language of the programs too: its
names, its whole numbers, its texts between double quotes and its arithmetic.  An expression of
these parts (`Rereadable`) that is set as the value of a variable is read back from its Java text,
if it is not too high (`parseSource_render`).

The two sides group in different ways.  The Java text has parentheses around every operation inside
an operation, and the grammar has tiers.  `ExprTree.Spelled` ties them together: a text writes the
lexemes of a tree that means the expression.  Because an operand is always of the tightest tier,
each operation makes the tree one level deeper, and this is the only thing that does.
-/

set_option autoImplicit false

namespace SvLang

/-! ## Texts that write trees -/

/-- What follows a value or an operand: a space, a closing parenthesis or the semicolon. -/
def StopsValue (rest : List Char) : Prop :=
  ∃ c tail, rest = c :: tail ∧ (c = ' ' ∨ c = ')' ∨ c = ';')

/-- The text writes the tree, in front of whatever it stops at; and the tree means the expression,
nests so many levels, and holds no `return`. -/
structure ExprTree.Spelled {τ : Tier} (t : ExprTree (.tier τ)) (text : String) (e : Expr)
    (levels : Nat) : Prop where
  lexes : ∃ ls : List Lexeme, ls.map Lexeme.terminal = t.terminals ∧
    ∀ rest ls', StopsValue rest → Lexes rest ls' → Lexes (text.toList ++ rest) (ls ++ ls')
  abstract : t.abstract = e
  levels : t.levels = levels
  settled : ∀ k, t.Settled k

namespace ExprTree.Spelled

variable {σ τ : Tier} {text text' : String} {e e' : Expr} {m n : Nat}

/-- A single lexeme. -/
theorem lexeme {t : ExprTree (.tier .primary)} {l : Lexeme} (hl : l.WellFormed)
    (hrest : ∀ rest, StopsValue rest → l.EndsBefore rest) (hterminals : t.terminals = [l.terminal])
    (hlevels : t.levels = 0) (hsettled : ∀ k, t.Settled k) :
    t.Spelled (String.ofList l.spelling) t.abstract 0 where
  lexes := by
    refine ⟨[l], hterminals.symm, fun rest ls' hstops hls ↦ ?_⟩
    rw [String.toList_ofList]
    exact .next hl (hrest rest hstops) hls
  abstract := rfl
  levels := hlevels
  settled := hsettled

theorem name {x : String} (hx : Lexeme.IsName x) :
    (ExprTree.name x).Spelled x (.identifier ⟨x, none⟩) 0 := by
  have hrest : ∀ rest, StopsValue rest → (Lexeme.word x.toList).EndsBefore rest := by
    rintro _ ⟨c, tail, rfl, hc⟩ d ⟨⟩
    rcases hc with rfl | rfl | rfl <;> decide
  have hterminals : (ExprTree.name x).terminals = [(Lexeme.word x.toList).terminal] := by
    rw [Lexeme.terminal_of_isName hx]
    rfl
  have h := lexeme hx.1 hrest hterminals rfl fun _ ↦ trivial
  rwa [Lexeme.spelling, String.ofList_toList] at h

theorem number {x : Float} {n : Nat} (h : Binary64.integer? x = some (n : Int)) (hn : n < 2 ^ 53)
    (hx : x ≠ -0.0) : ∃ t : ExprTree (.tier .primary),
      t.Spelled (String.ofList (Nat.toDigits 10 n)) (.number .numeric x) 0 := by
  have hreads : Decimal.readFloat? (String.ofList (Nat.toDigits 10 n)).toList = some x := by
    rw [String.toList_ofList]
    exact Decimal.readFloat?_toDigits h hn hx
  have hrest : ∀ rest, StopsValue rest → (Lexeme.whole (Nat.toDigits 10 n)).EndsBefore rest := by
    rintro _ ⟨c, tail, rfl, hc⟩
    have hend : ¬ c.isDigit ∧ c ≠ '.' := by rcases hc with rfl | rfl | rfl <;> decide
    exact (Numeral.whole _ (Decimal.isDigits_toDigits n)).endsBefore_lexeme hend.1 hend.2
  exact ⟨.number .numeric _ x hreads,
    lexeme (l := .whole _) (Decimal.isDigits_toDigits n) hrest rfl rfl fun _ ↦ trivial⟩

theorem quoted {s : String} (hs : '\x22' ∉ s.toList) :
    (ExprTree.quoted .double s).Spelled (String.ofList ('\x22' :: (s.toList ++ ['\x22'])))
      (.text .double s) 0 := by
  have hterminals : (ExprTree.quoted .double s).terminals =
      [(Lexeme.quoted .double s.toList).terminal] := by
    have hterminal : (Lexeme.quoted .double s.toList).terminal =
        ⟨.text .double, String.ofList s.toList⟩ := rfl
    rw [hterminal, String.ofList_toList]
    rfl
  exact lexeme (l := .quoted .double s.toList) hs (fun _ _ ↦ trivial) hterminals rfl fun _ ↦ trivial

theorem lift (h : σ.above? = some τ) {t : ExprTree (.tier σ)} (ht : t.Spelled text e n) :
    (ExprTree.lift h t).Spelled text e n :=
  ⟨ht.lexes, ht.abstract, ht.levels, ht.settled⟩

/-- Parentheses make a tree of the tightest tier, one level deeper. -/
theorem group {t : ExprTree (.tier .additive)} (ht : t.Spelled text e n) :
    (ExprTree.group (.whole (.lift rfl t))).Spelled ("(" ++ text ++ ")") e (n + 1) where
  lexes := by
    obtain ⟨ls, hterminals, hlexes⟩ := ht.lexes
    refine ⟨.symbol .openParen :: (ls ++ [.symbol .closeParen]), ?_, fun rest ls' _ hls ↦ ?_⟩
    · rw [List.map_cons, List.map_append, hterminals]
      rfl
    · have hclose := Lexes.next (Lexeme.wellFormed_symbol .closeParen)
        (Lexeme.endsBefore_single (by decide) _) hls
      have hinner := hlexes _ _ ⟨')', _, rfl, .inr (.inl rfl)⟩ hclose
      have hopen := Lexes.next (Lexeme.wellFormed_symbol .openParen)
        (Lexeme.endsBefore_single (by decide) _) hinner
      simpa [Lexeme.spelling, Symbol.spelling] using hopen
  abstract := ht.abstract
  levels := congrArg (· + 1) ht.levels
  settled _ := ht.settled _

theorem binary (h : σ.above? = some τ) {l : ExprTree (.tier τ)} {r : ExprTree (.tier σ)}
    {op : ArithmeticOp} (hop : (BinaryOp.arithmetic op).tier? = some τ) (hl : l.Spelled text e m)
    (hr : r.Spelled text' e' n) :
    (ExprTree.binary h l (.arithmetic op) hop r).Spelled
      (text ++ " " ++ (BinaryOp.arithmetic op).spelling ++ " " ++ text')
      (.binary e (.arithmetic op) e') (max m n) where
  lexes := by
    obtain ⟨ls, hterminals, hlexes⟩ := hl.lexes
    obtain ⟨rs, hterminals', hlexes'⟩ := hr.lexes
    refine ⟨ls ++ .symbol op.symbol :: rs, ?_, fun rest ls' hstops hls ↦ ?_⟩
    · rw [ExprTree.terminals, ← hterminals, ← hterminals', List.map_append]
      rfl
    · have hright := (hlexes' rest ls' hstops hls).blank (c := ' ') rfl
      have hsymbol := Lexes.space (Lexeme.wellFormed_symbol _) (op.endsBefore_space _) hright
      have hleft := hlexes _ _ ⟨' ', _, rfl, .inl rfl⟩ hsymbol
      simpa [BinaryOp.spelling, Lexeme.spelling, ArithmeticOp.symbol] using hleft
  abstract := by rw [ExprTree.abstract, hl.abstract, hr.abstract]
  levels := by rw [ExprTree.levels, hl.levels, hr.levels]
  settled k := ⟨hl.settled _, hr.settled k⟩

end ExprTree.Spelled

namespace Java

/-! ## Expressions that are read back -/

/-- Names, whole numbers that are not negative, texts without a character that Java escapes, and
arithmetic over them. -/
inductive Rereadable : Expr → Prop where
  | name {x : String} (hx : Lexeme.IsName x) : Rereadable (.identifier ⟨x, none⟩)
  | number {x : Float} {n : Nat} (h : Binary64.integer? x = some (n : Int)) (hn : n < 2 ^ 31)
      (hx : x ≠ -0.0) : Rereadable (.number .numeric x)
  | text {s : String} (hs : ∀ c ∈ ['\x22', '\\', '\n', '\t', '\r'], c ∉ s.toList) :
      Rereadable (.text .double s)
  | operation {left right : Expr} (op : ArithmeticOp) (hl : Rereadable left)
      (hr : Rereadable right) : Rereadable (.binary left (.arithmetic op) right)

/-- The value is that of the expression, and its text writes the expression: by itself, one level
less deep than the expression is high, and grouped as an operand. -/
structure Value.Spells (v : Value) (e : Expr) : Prop where
  value : ofExpr? e = some v
  whole : ∃ t : ExprTree (.tier .additive), t.Spelled v.render e (e.heightWith 1 - 1)
  operand : ∃ t : ExprTree (.tier .primary), t.Spelled (v.grouped v.render) e (e.heightWith 1)

namespace Value.Spells

variable {v l r : Value} {e left right : Expr}

/-- What stands for itself as an operand stands for itself as a whole. -/
theorem of_primary (hv : ofExpr? e = some v) (hgrouped : v.grouped v.render = v.render)
    (hheight : e.heightWith 1 = 0) {t : ExprTree (.tier .primary)} (ht : t.Spelled v.render e 0) :
    v.Spells e where
  value := hv
  whole := by
    rw [hheight]
    exact ⟨_, (ht.lift (τ := .multiplicative) rfl).lift rfl⟩
  operand := by
    rw [hheight, hgrouped]
    exact ⟨t, ht⟩

/-- An operation has its operands on the tier of its operator, to which they are lifted. -/
theorem operation (op : ArithmeticOp) (hl : l.Spells left) (hr : r.Spells right) :
    (Value.operation l op r).Spells (.binary left (.arithmetic op) right) := by
  obtain ⟨tl, htl⟩ := hl.operand
  obtain ⟨tr, htr⟩ := hr.operand
  have hheight : (Expr.binary left (.arithmetic op) right).heightWith 1 =
      max (left.heightWith 1) (right.heightWith 1) + 1 := by
    rw [Expr.heightWith, Nat.add_max_add_right]
  have hwhole : ∃ t : ExprTree (.tier .additive), t.Spelled (Value.operation l op r).render
      (.binary left (.arithmetic op) right) (max (left.heightWith 1) (right.heightWith 1)) := by
    by_cases hop : op.isAdditive
    · exact ⟨_, .binary rfl (ArithmeticOp.tier?_of_isAdditive hop)
        ((htl.lift (τ := .multiplicative) rfl).lift rfl) (htr.lift rfl)⟩
    · exact ⟨_, (ExprTree.Spelled.binary rfl (ArithmeticOp.tier?_of_not_isAdditive hop)
        (htl.lift rfl) htr).lift rfl⟩
  refine ⟨?_, ?_, ?_⟩
  · rw [ofExpr?, hl.value, hr.value]
  · rw [hheight, Nat.add_sub_cancel]
    exact hwhole
  · obtain ⟨t, ht⟩ := hwhole
    rw [hheight]
    exact ⟨_, ht.group⟩

end Value.Spells

/-- A text without characters that Java escapes is written as it is. -/
theorem quoted_of_plain {s : String}
    (hs : ∀ c ∈ ['\x22', '\\', '\n', '\t', '\r'], c ∉ s.toList) :
    quoted s = String.ofList ('\x22' :: (s.toList ++ ['\x22'])) := by
  have hescaped : s.toList.flatMap escaped = s.toList := by
    refine (List.flatMap_congr fun c hc ↦ ?_).trans (List.flatMap_singleton' s.toList)
    have hne : ∀ d ∈ ['\x22', '\\', '\n', '\t', '\r'], c ≠ d := by
      rintro d hd rfl
      exact hs c hd hc
    simp only [List.forall_mem_cons] at hne
    obtain ⟨hquote, hbackslash, hnewline, htab, hreturn, -⟩ := hne
    rw [escaped, if_neg hquote, if_neg hbackslash, if_neg hnewline, if_neg htab, if_neg hreturn]
  rw [quoted, quotedChars, hescaped]

/-- Every such expression has a value that spells it. -/
theorem Rereadable.exists_spells {e : Expr} (h : Rereadable e) : ∃ v : Value, v.Spells e := by
  induction h with
  | @name x hx => exact ⟨.variable x, .of_primary rfl rfl rfl (.name hx)⟩
  | @number x n h hn hx =>
    have hint : Binary64.int32? x = some (n : Int) := by
      have hrange : -2147483648 ≤ (n : Int) ∧ (n : Int) ≤ 2147483647 := by omega
      rw [Binary64.int32?, h, Option.filter_some, if_pos (decide_eq_true hrange)]
    obtain ⟨t, ht⟩ := ExprTree.Spelled.number h (by omega) hx
    exact ⟨.int n, .of_primary (by rw [Value.ofExpr?, hint]) rfl rfl ht⟩
  | @text s hs =>
    have ht := ExprTree.Spelled.quoted (hs _ List.mem_cons_self)
    rw [← quoted_of_plain hs] at ht
    exact ⟨.string s, .of_primary rfl rfl rfl ht⟩
  | operation op _ _ ihl ihr =>
    obtain ⟨l, hl⟩ := ihl
    obtain ⟨r, hr⟩ := ihr
    exact ⟨_, hl.operation op hr⟩

/-- **Java values are read back.**  An expression of names, whole numbers, texts without escapes and
arithmetic has a value.  If it is at most 127 operations high, the text of that value, set as the
value of a variable, is read as exactly this expression: the parentheses of the Java text and the
tiers of the grammar group it alike. -/
theorem parseSource_render {x : String} (hx : Lexeme.IsName x) {e : Expr} (he : Rereadable e)
    (hheight : e.heightWith 1 ≤ 127) :
    ∃ v, Value.ofExpr? e = some v ∧
      parseSource ("sv " ++ x ++ " = " ++ v.render ++ ";") =
        .ok ⟨[.variable ⟨x, none⟩ none (some e)]⟩ := by
  obtain ⟨v, hv⟩ := he.exists_spells
  obtain ⟨t, ht⟩ := hv.whole
  obtain ⟨ls, hterminals, hlexes⟩ := ht.lexes
  have hls := hlexes _ _ ⟨';', [], rfl, .inr (.inr rfl)⟩ Lexes.semicolon
  have hlevels : t.levels + 2 ≤ maxNesting := by
    rw [ht.levels, maxNesting]
    omega
  have hparse := parseSource_declaration hx hls hterminals (ht.settled _) hlevels
  rw [ht.abstract] at hparse
  exact ⟨v, hv.value, hparse⟩

/-- A sum that is multiplied keeps its parentheses. -/
theorem parseSource_render_product :
    parseSource "sv x = (1 + y) * 3;" = .ok ⟨[.variable ⟨"x", none⟩ none
      (some (.binary (.binary (.number .numeric 1.0) (.arithmetic .add) (.identifier ⟨"y", none⟩))
        (.arithmetic .multiply) (.number .numeric 3.0)))]⟩ := by
  have hname : ∀ c, c = 'x' ∨ c = 'y' → Lexeme.IsName (String.ofList [c]) := by
    rintro c (rfl | rfl) <;> exact ⟨⟨_, [], rfl, by decide, by simp⟩, by decide⟩
  have hone : Binary64.integer? 1.0 = some (1 : Nat) := by decide
  have hthree : Binary64.integer? 3.0 = some (3 : Nat) := by decide
  have hsum := Rereadable.operation .add (.number hone (by decide) (by decide))
    (.name (hname 'y' (.inr rfl)))
  have hproduct := hsum.operation .multiply (.number hthree (by decide) (by decide))
  obtain ⟨v, hv, hparse⟩ := parseSource_render (hname 'x' (.inl rfl)) hproduct (by decide)
  have hrender : v.render = "(1 + y) * 3" := by
    have hint : Binary64.int32? 1.0 = some 1 := by decide
    have hint' : Binary64.int32? 3.0 = some 3 := by decide
    simp only [Value.ofExpr?, hint, hint'] at hv
    obtain rfl := Option.some.inj hv
    decide
  rw [hrender] at hparse
  exact hparse

end Java

end SvLang
