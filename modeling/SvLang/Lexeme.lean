import SvLang.Token

/-!
# Lexemes

A lexeme is one word of a program as it was written: a symbol, a number, a word or a quoted text.
This file says how a lexeme is spelled and classified, and how the first lexeme is read off a run
of characters.

## What is here

* `Lexeme`, with its `spelling`, its `text` (the spelling without the quotes) and its `kind`.
* `Lexeme.scan`, which reads the longest lexeme at the front, and `spelling_append_of_scan`:
  reading takes away exactly the spelling, so nothing between two lexemes is lost.
-/

set_option autoImplicit false

namespace SvLang

/-- One word of a program. -/
inductive Lexeme where
  /-- A symbol of one or two characters. -/
  | symbol (s : Symbol)
  /-- A run of digits. -/
  | whole (digits : List Char)
  /-- Digits, a point, and digits. -/
  | decimal (digits fraction : List Char)
  /-- A letter or underscore, and then letters, digits and underscores. -/
  | word (letters : List Char)
  /-- Any characters but the mark, between two marks. -/
  | quoted (quote : Quote) (content : List Char)
  deriving DecidableEq, Repr

/-- How many bytes a run of characters takes in UTF-8.  The sum is built from the left, so that a
long run needs no stack. -/
def byteSize (cs : List Char) : Nat := cs.foldl (fun size c ↦ size + c.utf8Size) 0

theorem foldl_utf8Size (cs : List Char) (n : Nat) :
    cs.foldl (fun size c ↦ size + c.utf8Size) n = n + byteSize cs := by
  induction cs generalizing n with
  | nil => rfl
  | cons c cs ih => rw [byteSize, List.foldl_cons, List.foldl_cons, ih, ih (0 + _)]; omega

@[simp] theorem byteSize_nil : byteSize [] = 0 := rfl

@[simp] theorem byteSize_cons (c : Char) (cs : List Char) :
    byteSize (c :: cs) = c.utf8Size + byteSize cs := by
  rw [byteSize, List.foldl_cons, foldl_utf8Size, Nat.zero_add]

@[simp] theorem byteSize_append (cs ds : List Char) :
    byteSize (cs ++ ds) = byteSize cs + byteSize ds := by
  rw [byteSize, List.foldl_append, foldl_utf8Size, ← byteSize]

/-! ## Classes of characters

The letters and digits of the language are those of ASCII. -/

/-- What a word may start with. -/
def isWordStart (c : Char) : Bool := c.isAlpha || c = '_'

/-- What a word may go on with. -/
def isWordPart (c : Char) : Bool := c.isAlphanum || c = '_'

namespace Lexeme

/-! ## Spelling and class -/

/-- The lexeme as it was written. -/
def spelling : Lexeme → List Char
  | symbol s => s.spelling
  | whole digits => digits
  | decimal digits fraction => digits ++ '.' :: fraction
  | word letters => letters
  | quoted q content => q.mark :: (content ++ [q.mark])

/-- The text that a token keeps of the lexeme: all of it, but a quoted text without its marks. -/
def text : Lexeme → List Char
  | quoted _ content => content
  | l => l.spelling

/-- From this length on, a number with a fraction is of the widest class. -/
def doubleLength : Nat := 32

/-- The kind of the token that the lexeme becomes. -/
def kind : Lexeme → TokenKind
  | symbol s => .symbol s
  | whole _ => .number .numeric
  | decimal digits fraction =>
    .number (if digits.length + 1 + fraction.length < doubleLength then .float else .double)
  | word letters => .ofWord (String.ofList letters)
  | quoted q _ => .text q

/-- No lexeme is the end of the input. -/
theorem kind_ne_eof (l : Lexeme) : l.kind ≠ .eof := by
  cases l with
  | word letters =>
    rw [kind, TokenKind.ofWord]
    repeat' split
    all_goals simp
  | symbol | whole | decimal | quoted => simp [kind]

/-! ## Reading one lexeme -/

/-- The symbol at the front of `c :: cs`, if there is one.  Two characters go before one. -/
def leadingSymbol? (c : Char) (cs : List Char) : Option (Symbol × List Char) :=
  match cs with
  | [] => (Symbol.ofChar? c).map (·, [])
  | d :: rest =>
    match Symbol.ofPair? c d with
    | some s => some (s, rest)
    | none => (Symbol.ofChar? c).map (·, cs)

/-- The number at the front of characters that start with a digit.  A point belongs to it only if
a digit follows. -/
def leadingNumber (cs : List Char) : Lexeme × List Char :=
  let digits := cs.takeWhile Char.isDigit
  match cs.dropWhile Char.isDigit with
  | '.' :: d :: rest =>
    if d.isDigit then
      (decimal digits (d :: rest.takeWhile Char.isDigit), rest.dropWhile Char.isDigit)
    else (whole digits, '.' :: d :: rest)
  | rest => (whole digits, rest)

/-- Why no lexeme can be read. -/
inductive Defect where
  /-- No lexeme starts with this character. -/
  | unrecognized (c : Char)
  /-- The text opened by this quote has no end. -/
  | unterminated (quote : Quote)
  deriving DecidableEq, Repr

/-- The text that a mark has just opened, up to the next such mark. -/
def leadingText (q : Quote) (cs : List Char) : Except Defect (Lexeme × List Char) :=
  match cs.dropWhile (· != q.mark) with
  | _ :: rest => .ok (quoted q (cs.takeWhile (· != q.mark)), rest)
  | [] => .error (.unterminated q)

/-- The longest lexeme at the front of `c :: cs`, and the characters behind it. -/
def scan (c : Char) (cs : List Char) : Except Defect (Lexeme × List Char) :=
  match leadingSymbol? c cs with
  | some (s, rest) => .ok (symbol s, rest)
  | none =>
    match Quote.ofChar? c with
    | some q => leadingText q cs
    | none =>
      if c.isDigit then .ok (leadingNumber (c :: cs))
      else if isWordStart c then
        .ok (word (c :: cs.takeWhile isWordPart), cs.dropWhile isWordPart)
      else .error (.unrecognized c)

/-! ## Reading takes away the spelling -/

theorem spelling_append_of_leadingSymbol? {c : Char} {cs rest : List Char} {s : Symbol}
    (h : leadingSymbol? c cs = some (s, rest)) : s.spelling ++ rest = c :: cs := by
  rw [leadingSymbol?.eq_def] at h
  split at h
  · obtain ⟨s, hs, h⟩ := Option.map_eq_some_iff.1 h
    cases h
    rw [Symbol.spelling_ofChar? hs, List.singleton_append]
  · split at h
    · cases h
      rename_i hs
      rw [Symbol.spelling_ofPair? hs]
      rfl
    · obtain ⟨s, hs, h⟩ := Option.map_eq_some_iff.1 h
      cases h
      rw [Symbol.spelling_ofChar? hs, List.singleton_append]

theorem spelling_append_leadingNumber (cs : List Char) :
    (leadingNumber cs).1.spelling ++ (leadingNumber cs).2 = cs := by
  have h := List.takeWhile_append_dropWhile (p := Char.isDigit) (l := cs)
  rw [leadingNumber]
  split
  · rename_i heq
    split <;> simp [spelling, ← heq, h]
  · simpa only [spelling] using h

theorem spelling_append_of_leadingText {q : Quote} {cs rest : List Char} {l : Lexeme}
    (h : leadingText q cs = .ok (l, rest)) : l.spelling ++ rest = q.mark :: cs := by
  have hcs := List.takeWhile_append_dropWhile (p := (· != q.mark)) (l := cs)
  rw [leadingText] at h
  split at h
  · rename_i m tail htail
    cases h
    have hm : m = q.mark := by
      have := List.head?_dropWhile_not (· != q.mark) cs
      simpa [htail] using this
    rw [htail, hm] at hcs
    simpa [spelling] using hcs
  · cases h

/-- **Reading takes away exactly the spelling.** -/
theorem spelling_append_of_scan {c : Char} {cs rest : List Char} {l : Lexeme}
    (h : scan c cs = .ok (l, rest)) : l.spelling ++ rest = c :: cs := by
  rw [scan] at h
  split at h
  · cases h
    exact spelling_append_of_leadingSymbol? (by assumption)
  · split at h
    · rename_i hq
      rw [← Quote.mark_ofChar? hq]
      exact spelling_append_of_leadingText h
    · split at h
      · have hn := spelling_append_leadingNumber (c :: cs)
        rw [Except.ok.inj h] at hn
        exact hn
      · split at h
        · cases h
          simp [spelling]
        · cases h

theorem spelling_leadingNumber_ne_nil {c : Char} (h : c.isDigit) (cs : List Char) :
    (leadingNumber (c :: cs)).1.spelling ≠ [] := by
  rw [leadingNumber]
  split
  · split <;> simp [spelling, h]
  · simp [spelling, h]

/-- No lexeme that is read is empty. -/
theorem spelling_ne_nil_of_scan {c : Char} {cs rest : List Char} {l : Lexeme}
    (h : scan c cs = .ok (l, rest)) : l.spelling ≠ [] := by
  rw [scan] at h
  split at h
  · cases h
    simp [spelling]
  · split at h
    · rw [leadingText] at h
      split at h
      · cases h
        simp [spelling]
      · cases h
    · split at h
      · rename_i hc
        have hn := spelling_leadingNumber_ne_nil hc cs
        rw [Except.ok.inj h] at hn
        exact hn
      · split at h
        · cases h
          simp [spelling]
        · cases h

/-- What is left behind a lexeme is shorter. -/
theorem length_le_of_scan {c : Char} {cs rest : List Char} {l : Lexeme}
    (h : scan c cs = .ok (l, rest)) : rest.length ≤ cs.length := by
  have hs := congrArg List.length (spelling_append_of_scan h)
  have hn := List.length_pos_iff.2 (spelling_ne_nil_of_scan h)
  simp only [List.length_append, List.length_cons] at hs
  omega

end Lexeme

end SvLang
