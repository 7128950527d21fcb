import Mathlib.Logic.Basic

/-!
# How Java reads a string literal

A source text is read in two passes.  The first looks for the codes of characters: a backslash, the
letter `u` once or more, and four hexadecimal digits stand for the character of that number.  A
backslash begins a code only behind an even number of backslashes, and what a code stands for
begins no other.  The second pass reads literals, and cannot tell a character from its code.

Where the second pass ends a literal depends on more than the literal.  Two quotes are the empty
string in front of most things, but three quotes open a text block, which goes on over many lines up
to the next three.  So what matters is whether a text starts with a quote, as itself or as its code
(`StartsQuote`).

## What is here

* `pieces`: the first pass.  It cuts a text into pieces and loses nothing of it (`written_pieces`).
* `readLiteral?`: the second pass, for the literal at the front of a text.
* `startsQuote_iff`: the texts of which the second pass sees a quote first.
-/

set_option autoImplicit false

namespace SvLang.Java

/-! ## The first pass -/

/-- A character of a source text, or the code of one. -/
structure Piece where
  /-- The number of the character, if what is written is not a broken code. -/
  value? : Option Nat
  written : List Char
  deriving DecidableEq

/-- A character that is written as itself. -/
def Piece.ofChar (c : Char) : Piece := ⟨some c.toNat, [c]⟩

/-- Whether the piece stands for a character. -/
def Piece.is (p : Piece) (c : Char) : Bool := p.value? = some c.toNat

/-- The value of a hexadecimal digit. -/
def hexDigit? (c : Char) : Option Nat :=
  if '0' ≤ c ∧ c ≤ '9' then some (c.toNat - 48)
  else if 'a' ≤ c ∧ c ≤ 'f' then some (c.toNat - 87)
  else if 'A' ≤ c ∧ c ≤ 'F' then some (c.toNat - 55)
  else none

/-- What the first pass remembers of the characters that it has passed. -/
inductive Passed where
  /-- They end in an even number of backslashes, so that one more may begin a code. -/
  | even
  /-- They end in an odd number of backslashes. -/
  | odd
  /-- They end in the beginning of a code, with the value of its digits so far and the number of
  digits that are missing. -/
  | code (written : List Char) (value missing : Nat)

/-- What has been passed, but belongs to no piece as yet. -/
def Passed.written : Passed → List Char
  | even => []
  | odd => []
  | code written _ _ => written

/-- The pieces of a text.  A broken code takes all the rest of it. -/
def pieces : Passed → List Char → List Piece
  | .even, [] => []
  | .even, '\\' :: 'u' :: cs => pieces (.code ['\\', 'u'] 0 4) cs
  | .even, '\\' :: cs => .ofChar '\\' :: pieces .odd cs
  | .even, c :: cs => .ofChar c :: pieces .even cs
  | .odd, [] => []
  | .odd, c :: cs => .ofChar c :: pieces .even cs
  | .code written _ _, [] => [⟨none, written⟩]
  | .code written value missing, c :: cs =>
    if c = 'u' ∧ missing = 4 then pieces (.code (written ++ [c]) value missing) cs
    else
      match hexDigit? c with
      | none => [⟨none, written ++ c :: cs⟩]
      | some d =>
        if missing = 1 then ⟨some (16 * value + d), written ++ [c]⟩ :: pieces .even cs
        else pieces (.code (written ++ [c]) (16 * value + d) (missing - 1)) cs

/-- What is written in pieces. -/
def written (ps : List Piece) : List Char := ps.flatMap Piece.written

/-! ## The second pass -/

/-- Whether a character ends a line. -/
def isLineEnd (c : Char) : Bool := c = '\n' || c = '\r'

namespace Piece

/-- Whether the piece ends a line. -/
def endsLine (p : Piece) : Bool := p.is '\n' || p.is '\r'

/-- Whether the piece is white space within a line. -/
def isBlank (p : Piece) : Bool := p.is ' ' || p.is '\t' || p.is '\x0c'

/-- Whether the piece may stand behind a backslash. -/
def isEscape (p : Piece) : Bool :=
  ['b', 's', 't', 'n', 'f', 'r', '\x22', '\x27', '\\'].any p.is ||
    ['0', '1', '2', '3', '4', '5', '6', '7'].any p.is

end Piece

/-- The body of a string literal up to the first quote that is not escaped, and what is behind that
quote.  The quote has to come before the line ends.  Behind a backslash, the next piece is
`escaped`. -/
def readString? : (escaped : Bool) → List Piece → Option (List Piece × List Piece)
  | _, [] => none
  | true, p :: ps =>
    if p.isEscape then (readString? false ps).map fun (body, rest) ↦ (p :: body, rest) else none
  | false, p :: ps =>
    if p.is '\x22' then some ([], ps)
    else if p.value? = none ∨ p.endsLine then none
    else (readString? (p.is '\\') ps).map fun (body, rest) ↦ (p :: body, rest)

/-- Whether a quote is the first of the pieces. -/
def quoteFirst (ps : List Piece) : Bool := ps.head?.any fun p ↦ p.is '\x22'

/-- Whether quotes are the first two of the pieces. -/
def twoQuotesFirst (ps : List Piece) : Bool := quoteFirst ps && quoteFirst ps.tail

/-- Whether nothing but white space stands on the line, and the line ends. -/
def restOfLineIsBlank : List Piece → Bool
  | [] => false
  | p :: ps => p.endsLine || (p.isBlank && restOfLineIsBlank ps)

/-- The body of a text block up to the first three quotes that are not escaped, and what is behind
them.  A backslash may also stand at the end of a line. -/
def readBlock? : (escaped : Bool) → List Piece → Option (List Piece × List Piece)
  | _, [] => none
  | true, p :: ps =>
    if p.isEscape ∨ p.endsLine then
      (readBlock? false ps).map fun (body, rest) ↦ (p :: body, rest)
    else none
  | false, p :: ps =>
    if p.is '\x22' ∧ twoQuotesFirst ps then some ([], ps.drop 2)
    else if p.value? = none then none
    else (readBlock? (p.is '\\') ps).map fun (body, rest) ↦ (p :: body, rest)

/-- A literal, with its body as it is written. -/
inductive Literal where
  | string (body : List Char)
  | textBlock (body : List Char)
  deriving DecidableEq

/-- The text block behind its first three quotes, and the rest of the text.  Nothing else may stand
on the line of these quotes. -/
def readTextBlock? (ps : List Piece) : Option (Literal × List Char) :=
  if restOfLineIsBlank ps then
    (readBlock? false ps).map fun (body, rest) ↦ (.textBlock (written body), written rest)
  else none

/-- The literal at the front of a text, and the rest of the text.  Three quotes open a text block,
and are never the empty string with another quote behind it. -/
def readLiteral? (cs : List Char) : Option (Literal × List Char) :=
  match pieces .even cs with
  | [] => none
  | p :: ps =>
    if p.is '\x22' then
      if twoQuotesFirst ps then readTextBlock? (ps.drop 2)
      else (readString? false ps).map fun (body, rest) ↦ (.string (written body), written rest)
    else none

/-! ## What the first pass does to a text -/

/-- Nothing is lost. -/
theorem written_pieces (passed : Passed) (cs : List Char) :
    written (pieces passed cs) = passed.written ++ cs := by
  fun_induction pieces passed cs <;> simp_all [written, Passed.written, Piece.ofChar]

@[simp] theorem Piece.is_ofChar (c d : Char) : (Piece.ofChar c).is d = decide (c = d) := by
  simp [Piece.is, Piece.ofChar, Char.toNat_inj]

@[simp] theorem Piece.endsLine_ofChar (c : Char) : (Piece.ofChar c).endsLine = isLineEnd c := by
  simp [Piece.endsLine, isLineEnd]

@[simp] theorem written_map_ofChar (cs : List Char) : written (cs.map .ofChar) = cs := by
  rw [written, List.flatMap_map]
  exact List.flatMap_singleton' cs

/-- A character that is no backslash is a piece by itself. -/
theorem pieces_even_cons {c : Char} (h : c ≠ '\\') (cs : List Char) :
    pieces .even (c :: cs) = .ofChar c :: pieces .even cs := by
  rw [pieces] <;> simp [h]

/-- So is each of two characters, the first a backslash, that do not begin a code. -/
theorem pieces_even_backslash {c : Char} (h : c ≠ 'u') (cs : List Char) :
    pieces .even ('\\' :: c :: cs) = .ofChar '\\' :: .ofChar c :: pieces .even cs := by
  rw [pieces, pieces]
  simpa using h

theorem pieces_code_replicate (written : List Char) (value n : Nat) (cs : List Char) :
    pieces (.code written value 4) (List.replicate n 'u' ++ cs) =
      pieces (.code (written ++ List.replicate n 'u') value 4) cs := by
  induction n generalizing written with
  | zero => simp
  | succ n ih =>
    rw [List.replicate_succ, List.cons_append, pieces, if_pos ⟨rfl, rfl⟩, ih, List.append_assoc]
    rfl

/-- Any other character than a quote belongs to the body of a string literal. -/
theorem readString?_ofChar {c : Char} (hquote : c ≠ '\x22') (hline : ¬ isLineEnd c)
    (ps : List Piece) :
    readString? false (.ofChar c :: ps) =
      (readString? (c = '\\') ps).map fun (body, rest) ↦ (.ofChar c :: body, rest) := by
  have hend : ¬ ((Piece.ofChar c).value? = none ∨ (Piece.ofChar c).endsLine) := by
    rw [Piece.endsLine_ofChar]
    simpa [Piece.ofChar] using hline
  rw [readString?, if_neg (by simpa using hquote), if_neg hend, Piece.is_ofChar]

/-- A backslash takes what may stand behind it into the body. -/
theorem readString?_escape {c : Char} (h : (Piece.ofChar c).isEscape) (ps : List Piece) :
    readString? false (.ofChar '\\' :: .ofChar c :: ps) =
      (readString? false ps).map fun (body, rest) ↦
        (.ofChar '\\' :: .ofChar c :: body, rest) := by
  rw [readString?_ofChar (by decide) (by decide), decide_eq_true rfl, readString?, if_pos h,
    Option.map_map]
  rfl

/-- A text block is no string literal. -/
theorem readTextBlock?_ne_string (ps : List Piece) (body rest : List Char) :
    readTextBlock? ps ≠ some (.string body, rest) := by
  rw [readTextBlock?]
  split
  · cases readBlock? false ps <;> simp
  · simp

/-! ## Texts that start with a quote -/

/-- The text starts with a quote, as itself or as its code. -/
def StartsQuote (cs : List Char) : Prop :=
  ∃ rest, cs = '\x22' :: rest ∨
    ∃ n, cs = '\\' :: (List.replicate (n + 1) 'u' ++ '0' :: '0' :: '2' :: '2' :: rest)

/-- A small digit is determined by its value. -/
theorem toNat_of_hexDigit? {c : Char} {d : Nat} (h : hexDigit? c = some d) :
    d < 16 ∧ (d < 10 → c.toNat = 48 + d) := by
  rw [hexDigit?] at h
  split at h
  · rename_i hdigit
    have hle : 48 ≤ c.toNat ∧ c.toNat ≤ 57 := hdigit
    cases h
    omega
  -- The values of letters are 10 and more.
  · split at h
    · rename_i hlower
      have hle : 97 ≤ c.toNat ∧ c.toNat ≤ 102 := hlower
      cases h
      omega
    · split at h
      · rename_i hupper
        have hle : 65 ≤ c.toNat ∧ c.toNat ≤ 70 := hupper
        cases h
        omega
      · cases h

/-- A code of which the value is that of a quote goes on with a digit. -/
theorem exists_digit {written : List Char} {value missing : Nat} {cs : List Char}
    (hu : missing = 4 → cs.head? ≠ some 'u')
    (h : quoteFirst (pieces (.code written value missing) cs)) :
    ∃ c d rest, cs = c :: rest ∧ hexDigit? c = some d ∧
      if missing = 1 then 16 * value + d = 34
      else quoteFirst (pieces (.code (written ++ [c]) (16 * value + d) (missing - 1)) rest) := by
  cases cs with
  | nil => simp [pieces, quoteFirst, Piece.is] at h
  | cons c cs =>
    rw [pieces, if_neg fun hc ↦ hu hc.2 (congrArg some hc.1)] at h
    cases hd : hexDigit? c with
    | none => simp [hd, quoteFirst, Piece.is] at h
    | some d =>
      refine ⟨c, d, cs, rfl, hd, ?_⟩
      by_cases hlast : missing = 1
      · simpa [hd, hlast, quoteFirst, Piece.is] using h
      · simpa [hd, hlast] using h

/-- The digits of the code of a quote. -/
theorem digits_of_quoteFirst {written cs : List Char} (hu : cs.head? ≠ some 'u')
    (h : quoteFirst (pieces (.code written 0 4) cs)) :
    ∃ rest, cs = '0' :: '0' :: '2' :: '2' :: rest := by
  obtain ⟨a, v, cs, rfl, ha, h⟩ := exists_digit (fun _ ↦ hu) h
  obtain ⟨b, w, cs, rfl, hb, h⟩ := exists_digit (fun h ↦ absurd h (by decide)) h
  obtain ⟨c, x, cs, rfl, hc, h⟩ := exists_digit (fun h ↦ absurd h (by decide)) h
  obtain ⟨d, y, cs, rfl, hd, h⟩ := exists_digit (fun h ↦ absurd h (by decide)) h
  have hvalue : 16 * (16 * (16 * (16 * 0 + v) + w) + x) + y = 34 := h
  have hx := (toNat_of_hexDigit? hc).1
  have hy := (toNat_of_hexDigit? hd).1
  have hdigit : ∀ {e : Char} {z n : Nat}, hexDigit? e = some z → z = n → n < 10 →
      e = Char.ofNat (48 + n) := by
    rintro e z n he rfl hz
    rw [← (toNat_of_hexDigit? he).2 hz, Char.ofNat_toNat]
  refine ⟨cs, ?_⟩
  rw [hdigit ha (show v = 0 by omega) (by decide), hdigit hb (show w = 0 by omega) (by decide),
    hdigit hc (show x = 2 by omega) (by decide), hdigit hd (show y = 2 by omega) (by decide)]

/-- A code of a quote, behind a backslash and a `u`. -/
theorem code_of_quoteFirst {written cs : List Char}
    (h : quoteFirst (pieces (.code written 0 4) cs)) :
    ∃ n rest, cs = List.replicate n 'u' ++ '0' :: '0' :: '2' :: '2' :: rest := by
  induction cs generalizing written with
  | nil => simp [pieces, quoteFirst, Piece.is] at h
  | cons c cs ih =>
    by_cases hu : c = 'u'
    · rw [pieces, if_pos ⟨hu, rfl⟩] at h
      obtain ⟨n, rest, rfl⟩ := ih h
      exact ⟨n + 1, rest, by rw [hu, List.replicate_succ, List.cons_append]⟩
    · obtain ⟨rest, hcs⟩ := digits_of_quoteFirst (by simpa using hu) h
      exact ⟨0, rest, hcs⟩

/-- **Which texts start with a quote** for the second pass: those that start with one as itself or
as its code. -/
theorem startsQuote_iff (cs : List Char) : StartsQuote cs ↔ quoteFirst (pieces .even cs) := by
  constructor
  · rintro ⟨rest, rfl | ⟨n, rfl⟩⟩
    · rfl
    · rw [List.replicate_succ, List.cons_append, pieces, pieces_code_replicate]
      simp [pieces, hexDigit?, quoteFirst, Piece.is]
  · intro h
    cases cs with
    | nil => cases h
    | cons c cs =>
      by_cases hc : c = '\\'
      · subst hc
        by_cases hu : cs.head? = some 'u'
        · obtain ⟨cs, rfl⟩ := List.head?_eq_some_iff.1 hu
          rw [pieces] at h
          obtain ⟨n, rest, rfl⟩ := code_of_quoteFirst h
          exact ⟨rest, .inr ⟨n, rfl⟩⟩
        · rw [pieces] at h
          · cases h
          · exact fun cs' hcs ↦ hu (by rw [hcs]; rfl)
      · rw [pieces_even_cons hc] at h
        obtain rfl : c = '\x22' := by simpa [quoteFirst, Piece.is_ofChar] using h
        exact ⟨cs, .inl rfl⟩

theorem not_startsQuote_nil : ¬ StartsQuote [] := by
  simp [startsQuote_iff, pieces, quoteFirst]

end SvLang.Java
