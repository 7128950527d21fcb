import SvLang.Java
import SvLang.Proofs.Java.Reading

/-!
# String literals denote their texts

A literal goes through the two passes of `SvLang.Proofs.Java.Reading`, and after them its escapes
are replaced.  The first pass is the one that escaping can fall foul of, because a text may hold a
`u` behind a backslash.  But each of its backslashes is written as two, so an escaped text has runs
of backslashes of even length only, up to the one backslash in front of what is escaped
(`cut_flatMap_escaped`).  So the first pass changes nothing, the quotes of the text are passed over
by the second, and what the escapes stand for is the text.

What follows a literal can make a difference to it in one way.  The literal of the empty text is two
quotes, and with another quote behind them they open a text block (`exists_not_read_as_string`).
`quoted_denotes` is the main statement, and says that nothing else does.

## What is here

* `EscapesNext`: what follows is escaped, that is, behind an odd number of backslashes.
* `decode?` replaces the escapes of a body.  It knows no escapes but five.
* `IsLiteral`: what a literal has to do with the text that it denotes.
-/

set_option autoImplicit false

namespace SvLang.Java

/-! ## Escapes -/

/-- The characters end in an odd number of backslashes, so that what follows is escaped. -/
def EscapesNext (cs : List Char) : Prop := (cs.reverse.takeWhile (· = '\\')).length % 2 = 1

/-- What a character stands for behind a backslash. -/
def unescape? : Char → Option Char
  | '\x22' => some '\x22'
  | '\\' => some '\\'
  | 'n' => some '\n'
  | 't' => some '\t'
  | 'r' => some '\r'
  | _ => none

/-- What the characters between the quotes of a literal stand for, read from left to right. -/
def decode? : List Char → Option (List Char)
  | [] => some []
  | ['\\'] => none
  | '\\' :: c :: cs => (unescape? c).bind fun d ↦ (decode? cs).map (d :: ·)
  | c :: cs => (decode? cs).map (c :: ·)

/-! ## What a literal has to do -/

/-- The text is a string literal with this body, and denotes this content. -/
structure IsLiteral (text body content : List Char) : Prop where
  /-- The body stands between two quotes. -/
  quotes : text = '\x22' :: (body ++ ['\x22'])
  /-- The literal stands on one line. -/
  oneLine : ∀ c ∈ body, ¬ isLineEnd c
  /-- Every quote in the body is escaped. -/
  escaped : ∀ before after, body = before ++ '\x22' :: after → EscapesNext before
  /-- The quote behind the body is not. -/
  closed : ¬ EscapesNext body
  /-- Wherever a `u` follows a backslash, the backslash is escaped. -/
  noCode : ∀ before after, body = before ++ '\\' :: 'u' :: after → EscapesNext before
  /-- The escapes of the body decode to the content. -/
  decodes : decode? body = some content
  /-- It is read up to the closing quote and no further, whatever follows, but for one thing: behind
  the two quotes of an empty text, one more opens a text block. -/
  ends : ∀ rest, readLiteral? (text ++ rest) = some (.string body, rest) ↔
    (content = [] → ¬ StartsQuote rest)

/-! ## Runs of backslashes -/

theorem not_escapesNext_nil : ¬ EscapesNext [] := by simp [EscapesNext]

theorem escapesNext_backslash : EscapesNext ['\\'] := by simp [EscapesNext]

/-- A character is written as itself, or as a backslash and the character that stands for it. -/
theorem escaped_cases (c : Char) :
    (escaped c = [c] ∧ c ≠ '\x22' ∧ c ≠ '\\' ∧ ¬ isLineEnd c) ∨
      ∃ d, escaped c = ['\\', d] ∧ unescape? d = some c := by
  rw [escaped]
  repeat' split
  all_goals simp_all [unescape?, isLineEnd]

/-- What stands for a character is no line end and not the beginning of a code. -/
theorem not_isLineEnd_of_unescape? {c d : Char} (h : unescape? d = some c) :
    ¬ (isLineEnd d ∨ d = 'u') := by
  rintro (hd | rfl)
  · rw [isLineEnd, Bool.or_eq_true, decide_eq_true_eq, decide_eq_true_eq] at hd
    rcases hd with rfl | rfl <;> cases h
  · cases h

/-- In front of other characters, what is written for one makes no difference to what they
escape. -/
theorem escapesNext_escaped_append (c : Char) (cs : List Char) :
    EscapesNext (escaped c ++ cs) ↔ EscapesNext cs := by
  rw [EscapesNext, EscapesNext, List.reverse_append, List.takeWhile_append]
  split
  · rename_i hall
    rw [List.length_append, hall]
    rcases escaped_cases c with ⟨hc, -, hne, -⟩ | ⟨d, hd, -⟩
    · simp [hc, hne]
    · by_cases hslash : d = '\\' <;> simp [hd, hslash]
  · rfl

/-- A text that is written as a literal does not escape the quote that closes it. -/
theorem not_escapesNext_flatMap (cs : List Char) : ¬ EscapesNext (cs.flatMap escaped) := by
  induction cs with
  | nil => exact not_escapesNext_nil
  | cons c cs ih =>
    rw [List.flatMap_cons, escapesNext_escaped_append]
    exact ih

/-- **Where an escaped text is cut**, either the cut escapes what follows, or a character of the
text is written from there on. -/
theorem cut_flatMap_escaped {cs before after : List Char} {x : Char}
    (h : cs.flatMap escaped = before ++ x :: after) :
    EscapesNext before ∨ ∃ c es rest, escaped c = x :: es ∧ after = es ++ rest := by
  induction cs generalizing before with
  | nil => simp at h
  | cons c cs ih =>
    rw [List.flatMap_cons, List.append_eq_append_iff] at h
    rcases h with ⟨before, rfl, h⟩ | ⟨es, hc, h⟩
    · rw [escapesNext_escaped_append]
      exact ih h
    cases es with
    | nil => exact (@ih [] h.symm).imp_left fun h ↦ absurd h not_escapesNext_nil
    | cons y es =>
      obtain ⟨rfl, rfl⟩ := List.cons.inj h
      cases before with
      | nil => exact .inr ⟨c, es, _, hc, rfl⟩
      | cons b before =>
        -- Behind its first character, what is written for `c` has at most one more.
        rcases escaped_cases c with ⟨hc', -⟩ | ⟨d, hd, -⟩
        · simp [hc'] at hc
        · simp only [hd, List.cons_append, List.cons.injEq] at hc
          obtain ⟨rfl, hc⟩ := hc
          obtain rfl : before = [] := by
            cases before with
            | nil => rfl
            | cons b before => simp at hc
          exact .inl escapesNext_backslash

/-! ## Reading a literal -/

/-- What is written for a character decodes to the character. -/
theorem decode?_escaped_append (c : Char) (cs : List Char) :
    decode? (escaped c ++ cs) = (decode? cs).map (c :: ·) := by
  rcases escaped_cases c with ⟨hc, -, hslash, -⟩ | ⟨d, hd, hc⟩
  · rw [hc, List.singleton_append, decode?]
    · simp [hslash]
    · simp [hslash]
  · rw [hd, List.cons_append, List.singleton_append, decode?, hc]
    rfl

theorem decode?_flatMap_escaped (cs : List Char) : decode? (cs.flatMap escaped) = some cs := by
  induction cs with
  | nil => rfl
  | cons c cs ih =>
    rw [List.flatMap_cons, decode?_escaped_append, ih]
    rfl

/-- The first pass changes nothing in an escaped text. -/
theorem pieces_flatMap_escaped_append (cs rest : List Char) :
    pieces .even (cs.flatMap escaped ++ rest) =
      (cs.flatMap escaped).map .ofChar ++ pieces .even rest := by
  induction cs with
  | nil => rfl
  | cons c cs ih =>
    rw [List.flatMap_cons, List.append_assoc, List.map_append, List.append_assoc, ← ih]
    rcases escaped_cases c with ⟨hc, -, hslash, -⟩ | ⟨d, hd, hc⟩
    · rw [hc]
      exact pieces_even_cons hslash _
    · rw [hd]
      exact pieces_even_backslash (fun hu ↦ not_isLineEnd_of_unescape? hc (.inr hu)) _

/-- What may stand behind a backslash in an escaped text may stand there in Java. -/
theorem isEscape_of_unescape? {c d : Char} (h : unescape? d = some c) :
    (Piece.ofChar d).isEscape := by
  rw [unescape?.eq_def] at h
  split at h
  all_goals first | rfl | cases h

/-- Behind the first quote, the second pass reads up to the quote that closes the literal. -/
theorem readString?_flatMap_escaped (cs : List Char) (ps : List Piece) :
    readString? false ((cs.flatMap escaped).map .ofChar ++ .ofChar '\x22' :: ps) =
      some ((cs.flatMap escaped).map .ofChar, ps) := by
  induction cs with
  | nil => rfl
  | cons c cs ih =>
    rw [List.flatMap_cons, List.map_append, List.append_assoc]
    rcases escaped_cases c with ⟨hc, hquote, hslash, hline⟩ | ⟨d, hd, hc⟩
    · rw [hc, List.map_singleton, List.singleton_append, readString?_ofChar hquote hline]
      simp [hslash, ih]
    · rw [hd, List.map_cons, List.map_singleton, List.cons_append, List.singleton_append,
        readString?_escape (isEscape_of_unescape? hc), ih]
      rfl

/-- What the second pass sees of a literal and what follows it. -/
theorem pieces_quotedChars_append (cs rest : List Char) :
    pieces .even (quotedChars cs ++ rest) =
      .ofChar '\x22' :: ((cs.flatMap escaped).map .ofChar ++
        .ofChar '\x22' :: pieces .even rest) := by
  rw [quotedChars, List.cons_append, List.append_assoc, pieces_even_cons (by decide),
    pieces_flatMap_escaped_append]
  exact congrArg (_ :: ·) (congrArg (_ ++ ·) (pieces_even_cons (by decide) rest))

/-- Behind its first quote, a literal that is not empty does not go on with another. -/
theorem not_quoteFirst_flatMap_escaped (c : Char) (cs : List Char) (ps : List Piece) :
    ¬ quoteFirst (((c :: cs).flatMap escaped).map .ofChar ++ ps) := by
  rcases escaped_cases c with ⟨hc, hquote, -⟩ | ⟨d, hd, -⟩
  · simp [hc, quoteFirst, hquote]
  · simp [hd, quoteFirst]

/-- A literal is read up to the quote that closes it, unless it opens a text block. -/
theorem readLiteral?_quotedChars_append (cs rest : List Char) :
    readLiteral? (quotedChars cs ++ rest) = some (.string (cs.flatMap escaped), rest) ↔
      (cs = [] → ¬ StartsQuote rest) := by
  have hblock : twoQuotesFirst ((cs.flatMap escaped).map .ofChar ++
      .ofChar '\x22' :: pieces .even rest) ↔ cs = [] ∧ StartsQuote rest := by
    rw [startsQuote_iff, twoQuotesFirst]
    cases cs with
    | nil => simp [quoteFirst]
    | cons c cs =>
      rw [eq_false_of_ne_true (not_quoteFirst_flatMap_escaped c cs _)]
      simp
  simp only [readLiteral?, pieces_quotedChars_append]
  rw [if_pos (show (Piece.ofChar '\x22').is '\x22' from rfl)]
  by_cases h : cs = [] ∧ StartsQuote rest
  · rw [if_pos (hblock.2 h)]
    simp [readTextBlock?_ne_string, h]
  · rw [if_neg (mt hblock.1 h), readString?_flatMap_escaped, Option.map_some,
      written_map_ofChar, written_pieces]
    simpa [Passed.written] using h

/-- A text that is escaped stands on one line. -/
theorem not_isLineEnd_of_mem_flatMap {cs : List Char} {c : Char} (h : c ∈ cs.flatMap escaped) :
    ¬ isLineEnd c := by
  obtain ⟨d, -, hc⟩ := List.mem_flatMap.1 h
  rcases escaped_cases d with ⟨hd, -, -, hline⟩ | ⟨e, hd, he⟩
  · rw [hd, List.mem_singleton] at hc
    rwa [hc]
  · rw [hd, List.mem_cons, List.mem_singleton] at hc
    rcases hc with rfl | rfl
    · decide
    · exact fun hline ↦ not_isLineEnd_of_unescape? he (.inl hline)

/-- What is written for a text is a literal that denotes it. -/
theorem isLiteral_quotedChars (cs : List Char) :
    IsLiteral (quotedChars cs) (cs.flatMap escaped) cs where
  quotes := rfl
  oneLine _ := not_isLineEnd_of_mem_flatMap
  escaped before after h := by
    refine (cut_flatMap_escaped h).resolve_right ?_
    rintro ⟨c, es, -, hc, -⟩
    rcases escaped_cases c with ⟨hc', hquote, -⟩ | ⟨d, hd, -⟩
    · simp_all
    · simp_all
  closed := not_escapesNext_flatMap cs
  noCode before after h := by
    refine (cut_flatMap_escaped h).resolve_right ?_
    rintro ⟨c, es, rest, hc, hes⟩
    -- The backslash starts what is written for `c`, and a `u` stands for no character.
    rcases escaped_cases c with ⟨hc', -, hslash, -⟩ | ⟨d, hd, hunescape⟩
    · simp_all
    · obtain rfl : [d] = es := (List.cons.inj (hd.symm.trans hc)).2
      obtain rfl : 'u' = d := (List.cons.inj hes).1
      cases hunescape
  decodes := decode?_flatMap_escaped cs
  ends := readLiteral?_quotedChars_append cs

/-- **String literals denote their texts.**  What is written for a text is one literal, which stands
on one line and holds neither a quote that is not escaped nor the code of a character; it decodes to
the text.  It is read to its end and no further whatever follows, unless the text is empty and what
follows starts with a quote.  Different texts have different literals. -/
theorem quoted_denotes :
    (∀ s, ∃ body, IsLiteral (quoted s).toList body s.toList) ∧ Function.Injective quoted := by
  have hliteral : ∀ s, IsLiteral (quoted s).toList (s.toList.flatMap escaped) s.toList := by
    intro s
    rw [quoted, String.toList_ofList]
    exact isLiteral_quotedChars s.toList
  refine ⟨fun s ↦ ⟨_, hliteral s⟩, fun s r h ↦ ?_⟩
  have hends : ∀ t : String, readLiteral? (quoted t).toList =
      some (.string (t.toList.flatMap escaped), []) := by
    intro t
    have := ((hliteral t).ends []).2 fun _ ↦ not_startsQuote_nil
    rwa [List.append_nil] at this
  have hbody := hends s
  rw [h, hends r, Option.some.injEq, Prod.mk.injEq, Literal.string.injEq] at hbody
  have hdecodes := (hliteral s).decodes
  rw [← hbody.1, (hliteral r).decodes, Option.some.injEq] at hdecodes
  exact String.toList_inj.1 hdecodes.symm

/-- Two quotes that stand for the empty text are not always read as that: in front of one more, and
with the line at an end there, they open a text block. -/
theorem exists_not_read_as_string :
    readLiteral? ((quoted "").toList ++ ['\x22', '\n', '\x22', '\x22', '\x22']) =
      some (.textBlock ['\n'], []) ∧
    ¬ ∀ s rest, ∃ body, readLiteral? ((quoted s).toList ++ rest) = some (.string body, rest) := by
  have hblock : readLiteral? ((quoted "").toList ++ ['\x22', '\n', '\x22', '\x22', '\x22']) =
      some (.textBlock ['\n'], []) := by decide
  refine ⟨hblock, fun h ↦ ?_⟩
  obtain ⟨body, hstring⟩ := h "" ['\x22', '\n', '\x22', '\x22', '\x22']
  rw [hblock] at hstring
  cases hstring

/-- The text `\u"` is written as `"\\u\""`. -/
example : (quoted "\\u\x22").toList = ['\x22', '\\', '\\', 'u', '\\', '\x22', '\x22'] := by decide

end SvLang.Java
