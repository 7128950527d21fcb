import SvLang.Lexeme
import SvLang.Text.Quoted

/-!
# From source text to tokens

Between two lexemes stand blanks and comments, which are skipped; each lexeme becomes one token,
with the bytes it was written at; and a token of kind `eof` closes the list.

## What is here

* `Cursor`: a place in the source, with the characters still ahead.  `Cursor.token` reads the next
  token from it, and `length_lt_of_token` says that every token but the last brings the end nearer.
* `tokenize`: the tokens of a whole source, or the first spot that is no lexeme.
* `Lexer`: a lexer that is asked for one token at a time and that goes on behind an error.  It moves
  by one byte behind a character it does not know; if the character has more than one, it then
  stands inside a character and no longer answers.
-/

set_option autoImplicit false

namespace SvLang

/-! ## Errors -/

/-- A spot in the source where no lexeme can be read: its byte offset, and why. -/
structure LexError where
  offset : Nat
  defect : Lexeme.Defect
  deriving DecidableEq, Repr

/-- What a quoted text is called in messages. -/
def Quote.literalName : Quote → String
  | .double => "string"
  | .single => "char"

/-- The text of the error. -/
def LexError.message (e : LexError) : String :=
  match e.defect with
  | .unrecognized c => s!"unrecognized character {Text.quotedChar c} at byte {e.offset}"
  | .unterminated q => s!"unterminated {q.literalName} literal starting at byte {e.offset}"

/-! ## Blanks and comments -/

/-- A place between two characters of the source: the bytes before it, and the characters behind
it. -/
structure Cursor where
  offset : Nat
  rest : List Char
  deriving DecidableEq, Repr

/-- The blanks of the language. -/
def isBlank (c : Char) : Bool := c = ' ' || c = '\t' || c = '\r' || c = '\n'

namespace Cursor

/-- The front of a source. -/
def start (source : String) : Cursor := ⟨0, source.toList⟩

/-- Skips blanks and comments from `offset` on.  A comment starts with two slashes and runs up to
the end of its line; `inComment` says that the place is inside one. -/
def skipFrom (inComment : Bool) (offset : Nat) : List Char → Cursor
  | [] => ⟨offset, []⟩
  | c :: cs =>
    if inComment then skipFrom (c != '\n') (offset + c.utf8Size) cs
    else if isBlank c then skipFrom false (offset + c.utf8Size) cs
    else if c = '/' ∧ cs.head? = some '/' then skipFrom true (offset + c.utf8Size) cs
    else ⟨offset, c :: cs⟩

/-- The place behind the blanks and comments that follow. -/
def skipTrivia (here : Cursor) : Cursor := skipFrom false here.offset here.rest

theorem length_skipFrom_le (inComment : Bool) (offset : Nat) (cs : List Char) :
    (skipFrom inComment offset cs).rest.length ≤ cs.length := by
  fun_induction skipFrom inComment offset cs <;> grind

theorem length_skipTrivia_le (here : Cursor) : here.skipTrivia.rest.length ≤ here.rest.length :=
  length_skipFrom_le _ _ _

/-! ## One token -/

/-- The next token and the place behind it.  At the end of the source this is the token of kind
`eof`, and the place is the end. -/
def token (here : Cursor) : Except LexError (Token × Cursor) :=
  match here.skipTrivia with
  | ⟨offset, []⟩ => .ok (.endOfFile offset, ⟨offset, []⟩)
  | ⟨offset, c :: cs⟩ =>
    match Lexeme.scan c cs with
    | .ok (l, rest) =>
      let stop := offset + byteSize l.spelling
      .ok (⟨l.kind, String.ofList l.text, .between offset stop⟩, ⟨stop, rest⟩)
    | .error defect => .error ⟨offset, defect⟩

/-- Every token but the last brings the end nearer. -/
theorem length_lt_of_token {here there : Cursor} {t : Token} (h : here.token = .ok (t, there))
    (ht : t.kind ≠ .eof) : there.rest.length < here.rest.length := by
  have hle := here.length_skipTrivia_le
  rw [token] at h
  split at h
  · cases h
    exact absurd rfl ht
  · rename_i c cs hrest
    rw [hrest] at hle
    split at h
    · cases h
      exact Nat.lt_of_le_of_lt (Lexeme.length_le_of_scan (by assumption)) hle
    · cases h

/-- The tokens from a place on, behind those that are already `done`, latest first. -/
def tokensFrom (here : Cursor) (done : List Token) : Except LexError (List Token) :=
  match h : here.token with
  | .error e => .error e
  | .ok (t, there) =>
    if ht : t.kind = .eof then .ok (t :: done).reverse
    else
      have := length_lt_of_token h ht
      tokensFrom there (t :: done)
termination_by here.rest.length

end Cursor

/-! ## A whole source -/

/-- The tokens of a source, the last of them of kind `eof`. -/
def tokenize (source : String) : Except LexError (List Token) :=
  (Cursor.start source).tokensFrom []

/-! ## One token at a time, also behind an error -/

/-- The state of a lexer that is asked for one token at a time. -/
inductive Lexer where
  /-- The lexer stands between two characters. -/
  | between (here : Cursor)
  /-- The lexer stands inside a character, at this byte. -/
  | inside (offset : Nat)
  deriving DecidableEq, Repr

namespace Lexer

/-- A lexer at the front of a source. -/
def ofSource (source : String) : Lexer := between (.start source)

/-- How many bytes the lexer has passed. -/
def offset : Lexer → Nat
  | between here => here.offset
  | inside offset => offset

/-- The state behind a defect met at a place: one byte on if the character is not known, and at the
end of the source if a text has no end. -/
def behind (here : Cursor) : Lexeme.Defect → Lexer
  | .unrecognized c =>
    if c.utf8Size = 1 then between ⟨here.offset + 1, here.rest.tail⟩ else inside (here.offset + 1)
  | .unterminated _ => between ⟨here.offset + byteSize here.rest, []⟩

/-- The next token or error, and the state behind it.  From inside a character there is none. -/
def next? : Lexer → Option (Except LexError Token × Lexer)
  | inside _ => none
  | between here =>
    match here.token with
    | .ok (t, there) => some (.ok t, between there)
    | .error e => some (.error e, behind here.skipTrivia e.defect)

end Lexer

end SvLang
