import SvLang.Proofs.Grammar.Alike
import SvLang.Proofs.Source

/-!
# Layout does not matter

Where the tokens of a program stand, and how those are spelled whose text means nothing, makes no
difference to what the program is; it only shows in the places that errors name.  So a source may be
laid out anew, with other blanks and other comments, and as long as the same tokens are read from it
it compiles to the same Java text or is refused for the same reason (`outcome_eq_of_contents`).
-/

set_option autoImplicit false

namespace SvLang

open SvLang.Parser

/-- The kinds and the texts of the tokens of a source, or what is wrong with it.  Places are
dropped. -/
def contents (source : String) : Except Lexeme.Defect (List (TokenKind × String)) :=
  ((tokenize source).mapError LexError.defect).map (List.map fun t ↦ (t.kind, t.text))

/-- The error without its place. -/
def CompileError.unplaced : CompileError → CompileError
  | lex e => lex { e with offset := 0 }
  | parse e => parse { e with offset := 0 }
  | semantic e => semantic e

/-! ## Stage by stage -/

/-- What is done with equal values gives equal outcomes, also if the errors before it are equal only
as far as `f` shows them. -/
theorem mapError_bind_congr {ε ε' α β : Type} {x y : Except ε α} {f : ε → ε'}
    (h : x.mapError f = y.mapError f) (next : α → Except ε β) :
    (x >>= next).mapError f = (y >>= next).mapError f := by
  cases x <;> cases y <;> simp_all [Except.mapError, bind, Except.bind]

theorem mapError_parse_unplaced (r : Except ParseError Program) :
    (r.mapError .parse).mapError CompileError.unplaced =
      (r.mapError (ParseError.seen id)).mapError .parse := by
  cases r with
  | ok p => rfl
  | error e =>
    show Except.error (CompileError.parse { e with offset := 0 }) = .error (.parse (e.seen id))
    rw [ParseError.seen_id]

theorem parseSource_of_contents {a b : String} (h : contents a = contents b) :
    (parseSource a).mapError CompileError.unplaced =
      (parseSource b).mapError CompileError.unplaced := by
  rw [contents, contents] at h
  rw [parseSource, parseSource]
  cases ha : tokenize a with
  | error e =>
    cases hb : tokenize b with
    | error e' =>
      have hdefect : e.defect = e'.defect := by simpa [ha, hb, Except.mapError, Except.map] using h
      show Except.error (CompileError.lex { e with offset := 0 }) =
        .error (.lex { e' with offset := 0 })
      rw [hdefect]
    | ok us => simp [ha, hb, Except.mapError, Except.map] at h
  | ok ts =>
    cases hb : tokenize b with
    | error e' => simp [ha, hb, Except.mapError, Except.map] at h
    | ok us =>
      have hcontents : (ts.map fun t ↦ (t.kind, t.text)) = us.map fun t ↦ (t.kind, t.text) := by
        simpa [ha, hb, Except.mapError, Except.map] using h
      show ((parse ts).mapError CompileError.parse).mapError _ =
        ((parse us).mapError CompileError.parse).mapError _
      rw [mapError_parse_unplaced, mapError_parse_unplaced, parse, parse,
        parseWithin_alike maxNesting (alike_of_contents hcontents)]

/-- **Layout does not matter.**  Tokens of which the grammar sees the same are accepted as the same
program; or they are refused for the same reason, and the errors differ in nothing but the place,
and the text of a token that nothing starts with.  So two sources of which the same tokens are read,
up to their places, compile to the same Java text; or they are refused by the same stage with the
same error, up to its place. -/
theorem outcome_eq_of_contents :
    (∀ ts us : List Token, ts.map Token.terminal = us.map Token.terminal →
      (parse ts).mapError (ParseError.seen fun _ ↦ "") =
        (parse us).mapError (ParseError.seen fun _ ↦ "")) ∧
    ∀ a b : String, contents a = contents b →
      (compileSource a).mapError CompileError.unplaced =
        (compileSource b).mapError CompileError.unplaced :=
  ⟨fun _ _ h ↦ parseWithin_alike maxNesting (alike_of_terminals h), fun _ _ h ↦
    mapError_bind_congr (mapError_bind_congr (parseSource_of_contents h) _) _⟩

/-- An operator without an operand, written in two ways; and a sum with a comment in it. -/
theorem outcome_eq_of_contents_comment :
    (parse [⟨.identifier, "x", ⟨0, 1⟩⟩, ⟨.symbol .plus, "+", ⟨1, 2⟩⟩, .endOfFile 2]).mapError
        (ParseError.seen fun _ ↦ "") =
      (parse [⟨.identifier, "x", ⟨7, 8⟩⟩, ⟨.symbol .plus, "plus", ⟨3, 5⟩⟩, pastEnd]).mapError
        (ParseError.seen fun _ ↦ "") ∧
    (compileSource "sv x=1+2;").mapError CompileError.unplaced =
      (compileSource "sv x = // one\n 1\n + 2 ;").mapError CompileError.unplaced := by
  refine ⟨outcome_eq_of_contents.1 _ _ (by decide), outcome_eq_of_contents.2 _ _ ?_⟩
  decide +kernel

end SvLang
