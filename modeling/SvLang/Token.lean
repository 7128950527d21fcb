/-!
# Tokens of the sv language

The vocabulary that the lexer produces and the grammar reads.

## What is here

* `Symbol`, `Keyword`, `TypeName`: the fixed spellings of the language, each with its `spelling`
  and the way back (`Symbol.ofPair?`, `Symbol.ofChar?`, `Keyword.ofWord?`, `TypeName.ofWord?`).
* `Width`: the three classes of number, ordered from the narrowest to the widest.
* `TokenKind`: the class of a token.  Kinds are grouped by what the grammar asks about them, so
  "is this a type word, and which type?" is a pattern and not a table.
* `Span`, `Token`: a kind, its text and the bytes of the source it was written at.
-/

set_option autoImplicit false

namespace SvLang

/-! ## Fixed spellings -/

/-- Punctuation and operators. -/
inductive Symbol where
  | openParen | closeParen | openBrace | closeBrace | openBracket | closeBracket
  | semicolon | comma | colon | assign
  | plus | minus | star | slash | percent
  | plusAssign | minusAssign | starAssign | slashAssign | plusPlus | minusMinus
  | less | greater | equal | notEqual
  deriving DecidableEq, Repr

namespace Symbol

/-- How the symbol is written. -/
def spelling : Symbol → List Char
  | openParen => ['('] | closeParen => [')']
  | openBrace => ['\x7b'] | closeBrace => ['\x7d']
  | openBracket => ['['] | closeBracket => [']']
  | semicolon => [';'] | comma => [','] | colon => [':'] | assign => ['=']
  | plus => ['+'] | minus => ['-'] | star => ['*'] | slash => ['/'] | percent => ['%']
  | plusAssign => ['+', '='] | minusAssign => ['-', '=']
  | starAssign => ['*', '='] | slashAssign => ['/', '=']
  | plusPlus => ['+', '+'] | minusMinus => ['-', '-']
  | less => ['<'] | greater => ['>'] | equal => ['=', '='] | notEqual => ['!', '=']

@[simp] theorem spelling_ne_nil (s : Symbol) : s.spelling ≠ [] := by cases s <;> simp [spelling]

/-- The name of the symbol in listings and messages. -/
def name : Symbol → String
  | openParen => "LParen" | closeParen => "RParen"
  | openBrace => "LBrace" | closeBrace => "RBrace"
  | openBracket => "LBracket" | closeBracket => "RBracket"
  | semicolon => "Semi" | comma => "Comma" | colon => "Colon" | assign => "Equals"
  | plus => "Plus" | minus => "Minus" | star => "Star" | slash => "Slash" | percent => "Percent"
  | plusAssign => "PlusEq" | minusAssign => "MinusEq"
  | starAssign => "StarEq" | slashAssign => "SlashEq"
  | plusPlus => "PlusPlus" | minusMinus => "MinusMinus"
  | less => "Lt" | greater => "Gt" | equal => "EqEq" | notEqual => "BangEq"

/-- Every symbol, in the order in which they are declared. -/
def all : List Symbol :=
  [openParen, closeParen, openBrace, closeBrace, openBracket, closeBracket,
    semicolon, comma, colon, assign, plus, minus, star, slash, percent,
    plusAssign, minusAssign, starAssign, slashAssign, plusPlus, minusMinus,
    less, greater, equal, notEqual]

theorem mem_all (s : Symbol) : s ∈ all := by cases s <;> decide

/-- The symbol of two characters that starts with these two. -/
def ofPair? : Char → Char → Option Symbol
  | '=', '=' => some equal
  | '!', '=' => some notEqual
  | '+', '=' => some plusAssign
  | '-', '=' => some minusAssign
  | '*', '=' => some starAssign
  | '/', '=' => some slashAssign
  | '+', '+' => some plusPlus
  | '-', '-' => some minusMinus
  | _, _ => none

/-- The symbol of one character.  A `!` alone is none. -/
def ofChar? : Char → Option Symbol
  | '(' => some openParen
  | ')' => some closeParen
  | '\x7b' => some openBrace
  | '\x7d' => some closeBrace
  | '[' => some openBracket
  | ']' => some closeBracket
  | ';' => some semicolon
  | ',' => some comma
  | ':' => some colon
  | '=' => some assign
  | '+' => some plus
  | '-' => some minus
  | '*' => some star
  | '/' => some slash
  | '%' => some percent
  | '<' => some less
  | '>' => some greater
  | _ => none

theorem spelling_ofPair? {c d : Char} {s : Symbol} (h : ofPair? c d = some s) :
    s.spelling = [c, d] := by
  revert h
  fun_cases ofPair? c d <;> rintro ⟨⟩ <;> rfl

theorem spelling_ofChar? {c : Char} {s : Symbol} (h : ofChar? c = some s) :
    s.spelling = [c] := by
  revert h
  fun_cases ofChar? c <;> rintro ⟨⟩ <;> rfl

end Symbol

/-- The words that name a type. -/
inductive TypeName where
  | int | float | double | bool | char | string
  deriving DecidableEq, Repr

namespace TypeName

/-- How the type is written in a program. -/
def spelling : TypeName → String
  | int => "int" | float => "float" | double => "double"
  | bool => "bool" | char => "char" | string => "String"

/-- The name of the type in tree dumps. -/
def name : TypeName → String
  | int => "Int" | float => "Float" | double => "Double"
  | bool => "Bool" | char => "Char" | string => "String"

/-- Every type, in the order in which they are declared. -/
def all : List TypeName := [int, float, double, bool, char, string]

theorem mem_all (t : TypeName) : t ∈ all := by cases t <;> decide

/-- The type that a word names. -/
def ofWord? (word : String) : Option TypeName :=
  all.find? (·.spelling == word)

/-- The types whose values are numbers. -/
def isNumeric : TypeName → Bool
  | int | float | double => true
  | bool | char | string => false

end TypeName

/-- The reserved words that name no type. -/
inductive Keyword where
  | ifWord | elseWord | whileWord | forWord | switchWord | caseWord | defaultWord | breakWord
  | functionWord | returnWord | svWord
  deriving DecidableEq, Repr

namespace Keyword

/-- How the word is written. -/
def spelling : Keyword → String
  | ifWord => "if" | elseWord => "else" | whileWord => "while" | forWord => "for"
  | switchWord => "switch" | caseWord => "case" | defaultWord => "default" | breakWord => "break"
  | functionWord => "function" | returnWord => "return" | svWord => "sv"

/-- The name of the word in listings and messages. -/
def name : Keyword → String
  | ifWord => "KwIf" | elseWord => "KwElse" | whileWord => "KwWhile" | forWord => "KwFor"
  | switchWord => "KwSwitch" | caseWord => "KwCase" | defaultWord => "KwDefault"
  | breakWord => "KwBreak" | functionWord => "KwFunction" | returnWord => "KwReturn"
  | svWord => "Sv"

/-- Every keyword, in the order in which they are declared. -/
def all : List Keyword :=
  [ifWord, elseWord, whileWord, forWord, switchWord, caseWord, defaultWord, breakWord,
    functionWord, returnWord, svWord]

theorem mem_all (k : Keyword) : k ∈ all := by cases k <;> decide

/-- The keyword that a word is, if it is one. -/
def ofWord? (word : String) : Option Keyword :=
  all.find? (·.spelling == word)

end Keyword

/-! ## Classes of literal -/

/-- The class of a number, from the narrowest to the widest: a whole number, a number with a
fraction, and one written with so many characters that it asks for the full precision. -/
inductive Width where
  | numeric | float | double
  deriving DecidableEq, Repr

namespace Width

/-- The name of the class in listings and messages. -/
def name : Width → String
  | numeric => "Number" | float => "Float" | double => "Double"

/-- The wider of two classes: arithmetic on two numbers has this class. -/
def max : Width → Width → Width
  | double, _ | _, double => double
  | float, _ | _, float => float
  | numeric, numeric => numeric

theorem max_comm (v w : Width) : v.max w = w.max v := by cases v <;> cases w <;> rfl

theorem max_assoc (u v w : Width) : (u.max v).max w = u.max (v.max w) := by
  cases u <;> cases v <;> cases w <;> rfl

theorem max_self (w : Width) : w.max w = w := by cases w <;> rfl

end Width

/-- The two quotes that enclose a text. -/
inductive Quote where
  | double | single
  deriving DecidableEq, Repr

namespace Quote

/-- The character that opens and closes the text. -/
def mark : Quote → Char
  | double => '\x22'
  | single => '\x27'

/-- The quote that a character is, if it is one. -/
def ofChar? (c : Char) : Option Quote :=
  if c = double.mark then some double
  else if c = single.mark then some single
  else none

/-- The name of the class of texts in listings and messages. -/
def name : Quote → String
  | double => "Str" | single => "Char"

theorem mark_ofChar? {c : Char} {q : Quote} (h : ofChar? c = some q) : q.mark = c := by
  grind [ofChar?]

end Quote

/-! ## Tokens -/

/-- The class of a token. -/
inductive TokenKind where
  | eof
  | symbol (s : Symbol)
  | number (width : Width)
  | text (quote : Quote)
  | typeName (type : TypeName)
  | keyword (word : Keyword)
  | identifier
  deriving DecidableEq, Repr

namespace TokenKind

/-- The name of the kind in listings and messages. -/
def name : TokenKind → String
  | eof => "Eof"
  | symbol s => s.name
  | number w => w.name
  | text q => q.name
  | typeName t => "Kw" ++ t.name
  | keyword k => k.name
  | identifier => "Identifier"

/-- The kind of a word: a type, a keyword, or else a name. -/
def ofWord (word : String) : TokenKind :=
  match TypeName.ofWord? word with
  | some t => typeName t
  | none => match Keyword.ofWord? word with
    | some k => keyword k
    | none => identifier

/-- Every kind, the end of the input first. -/
def all : List TokenKind :=
  [eof] ++ Symbol.all.map symbol ++ [number .numeric, number .float, number .double]
    ++ [text .double, text .single] ++ TypeName.all.map typeName ++ Keyword.all.map keyword
    ++ [identifier]

theorem mem_all (k : TokenKind) : k ∈ all := by
  cases k with
  | symbol s => simp [all, Symbol.mem_all]
  | number w => cases w <;> simp [all]
  | text q => cases q <;> simp [all]
  | typeName t => simp [all, TypeName.mem_all]
  | keyword k => simp [all, Keyword.mem_all]
  | eof => simp [all]
  | identifier => simp [all]

/-- The kind of a given name.  No two kinds share one. -/
def ofName? (name : String) : Option TokenKind :=
  all.find? (·.name == name)

/-- The type that the kind names. -/
def typeName? : TokenKind → Option TypeName
  | typeName t => some t
  | _ => none

end TokenKind

/-- A range of bytes of the source, counted in 32 bits. -/
structure Span where
  start : UInt32
  stop : UInt32
  deriving DecidableEq, Repr

/-- The range between two byte offsets. -/
def Span.between (start stop : Nat) : Span := ⟨UInt32.ofNat start, UInt32.ofNat stop⟩

/-- A token: its kind, its text, and where it was written.  The text of a quoted token is what
stands between the quotes. -/
structure Token where
  kind : TokenKind
  text : String
  span : Span
  deriving DecidableEq, Repr

/-- The token that ends every token list of a source of `size` bytes. -/
def Token.endOfFile (size : Nat) : Token :=
  ⟨.eof, "EndOfFile", .between size size⟩

end SvLang
