import SvLang.Proofs.Grammar.Leads
import SvLang.Proofs.Lexing.Scan

/-!
# Texts that write lexemes

`Lexes cs ls` says that the characters `cs` write the lexemes `ls`, with blanks and comments between
them, so that each lexeme ends where the text goes on.  Such a text is read as those lexemes
(`tokenize_of_lexes`): one token each, and one for the end.  `Writes` says the same with the tokens
in the place of the lexemes, each at the bytes that it takes.
-/

set_option autoImplicit false

namespace SvLang

/-! ## Blanks and comments -/

/-- Blanks, and comments with the end of their lines. -/
inductive Trivia : List Char → Prop where
  | nil : Trivia []
  | blank {c : Char} {w : List Char} (hc : isBlank c) (hw : Trivia w) : Trivia (c :: w)
  | comment {body w : List Char} (hbody : '\n' ∉ body) (hw : Trivia w) :
      Trivia ('/' :: '/' :: (body ++ '\n' :: w))

/-- What may close a text: blanks and comments, the last of which may have no end of line. -/
def ClosingTrivia (w : List Char) : Prop :=
  ∃ v tail, w = v ++ tail ∧ Trivia v ∧
    (tail = [] ∨ ∃ body, tail = '/' :: '/' :: body ∧ '\n' ∉ body)

theorem closingTrivia_nil : ClosingTrivia [] := ⟨[], [], rfl, .nil, .inl rfl⟩

namespace Cursor

/-- Inside a comment, everything up to the end of the line is skipped. -/
theorem skipFrom_comment {body : List Char} (hbody : '\n' ∉ body) (offset : Nat) (cs : List Char) :
    skipFrom true offset (body ++ cs) = skipFrom true (offset + byteSize body) cs := by
  induction body generalizing offset with
  | nil => rfl
  | cons c body ih =>
    rw [List.mem_cons, not_or] at hbody
    have hc : (c != '\n') = true := bne_iff_ne.2 (Ne.symm hbody.1)
    rw [List.cons_append, skipFrom, if_pos rfl, hc, ih hbody.2, byteSize_cons, Nat.add_assoc]

/-- Two slashes open a comment. -/
theorem skipFrom_slashes (offset : Nat) (cs : List Char) :
    skipFrom false offset ('/' :: '/' :: cs) = skipFrom true (offset + 2) cs := by
  have hfirst : ¬ isBlank '/' := by decide
  rw [skipFrom, if_neg Bool.false_ne_true, if_neg hfirst, if_pos ⟨rfl, rfl⟩, skipFrom, if_pos rfl]
  rfl

theorem skipFrom_trivia {w : List Char} (hw : Trivia w) (offset : Nat) (cs : List Char) :
    skipFrom false offset (w ++ cs) = skipFrom false (offset + byteSize w) cs := by
  induction hw generalizing offset with
  | nil => rfl
  | @blank c w hc _ ih =>
    rw [List.cons_append, skipFrom, if_neg Bool.false_ne_true, if_pos hc, ih, byteSize_cons,
      Nat.add_assoc]
  | @comment body w hbody _ ih =>
    rw [List.cons_append, List.cons_append, skipFrom_slashes, List.append_assoc,
      skipFrom_comment hbody, List.cons_append, skipFrom, if_pos rfl, bne_self_eq_false, ih]
    congr 1
    simp only [byteSize_cons, byteSize_append]
    have hslash : '/'.utf8Size = 1 := rfl
    omega

/-- At the end of a text everything is skipped. -/
theorem skipFrom_closingTrivia {w : List Char} (hw : ClosingTrivia w) (offset : Nat) :
    skipFrom false offset w = ⟨offset + byteSize w, []⟩ := by
  obtain ⟨v, tail, rfl, hv, rfl | ⟨body, rfl, hbody⟩⟩ := hw
  · rw [skipFrom_trivia hv, byteSize_append]
    rfl
  · have hend := skipFrom_comment hbody (offset + byteSize v + 2) []
    rw [List.append_nil] at hend
    rw [skipFrom_trivia hv, skipFrom_slashes, hend, skipFrom]
    congr 1
    simp only [byteSize_cons, byteSize_append]
    have hslash : '/'.utf8Size = 1 := rfl
    omega

end Cursor

/-! ## Lexemes in a text -/

/-- The characters write these lexemes, each behind blanks and comments and each ending where the
text goes on. -/
inductive Lexes : List Char → List Lexeme → Prop where
  | nil {w : List Char} (hw : ClosingTrivia w) : Lexes w []
  | cons {w rest : List Char} {l : Lexeme} {ls : List Lexeme} (hw : Trivia w) (hl : l.WellFormed)
      (hrest : l.EndsBefore rest) (hls : Lexes rest ls) :
      Lexes (w ++ (l.spelling ++ rest)) (l :: ls)

/-- A lexeme without anything in front of it. -/
theorem Lexes.next {rest : List Char} {l : Lexeme} {ls : List Lexeme} (hl : l.WellFormed)
    (hrest : l.EndsBefore rest) (hls : Lexes rest ls) : Lexes (l.spelling ++ rest) (l :: ls) :=
  .cons .nil hl hrest hls

/-- A blank in front of a text writes nothing. -/
theorem Lexes.blank {cs : List Char} {ls : List Lexeme} {c : Char} (hc : isBlank c)
    (h : Lexes cs ls) : Lexes (c :: cs) ls := by
  cases h with
  | nil hw =>
    obtain ⟨v, tail, rfl, hv, htail⟩ := hw
    exact .nil ⟨c :: v, tail, rfl, .blank hc hv, htail⟩
  | cons hw hl hrest hls => exact .cons (.blank hc hw) hl hrest hls

/-- A lexeme behind a space. -/
theorem Lexes.space {rest : List Char} {l : Lexeme} {ls : List Lexeme} (hl : l.WellFormed)
    (hrest : l.EndsBefore rest) (hls : Lexes rest ls) :
    Lexes (' ' :: (l.spelling ++ rest)) (l :: ls) :=
  (Lexes.next hl hrest hls).blank rfl

/-- What starts no symbol of two characters ends in front of anything. -/
theorem Lexeme.endsBefore_single {s : Symbol} (hs : s ∈ [Symbol.openParen, .closeParen, .semicolon])
    (rest : List Char) : (symbol s).EndsBefore rest := by
  have hsingle : s = .openParen ∨ s = .closeParen ∨ s = .semicolon := by simpa using hs
  rcases hsingle with rfl | rfl | rfl <;> exact ⟨by rintro c ⟨⟩ d -; rfl, by simp⟩

/-- The semicolon that closes a text. -/
theorem Lexes.semicolon : Lexes [';'] [.symbol .semicolon] :=
  .next (Lexeme.wellFormed_symbol .semicolon) (Lexeme.endsBefore_single (by decide) [])
    (.nil closingTrivia_nil)

/-- What the grammar sees of the token of a lexeme. -/
def Lexeme.terminal (l : Lexeme) : Terminal :=
  ⟨l.kind, if l.kind.hasText then String.ofList l.text else ""⟩

/-- A name is seen as one. -/
theorem Lexeme.terminal_of_isName {x : String} (hx : IsName x) :
    (word x.toList).terminal = .ofName x := by
  have hkind : (word x.toList).kind = .identifier := by
    rw [kind, String.ofList_toList, hx.2]
  have htext : String.ofList (word x.toList).text = x := String.ofList_toList
  rw [terminal, hkind, htext]
  rfl

namespace Cursor

/-- In front of a lexeme nothing is skipped. -/
theorem skipFrom_spelling {l : Lexeme} {rest : List Char} (hl : l.WellFormed)
    (hrest : l.EndsBefore rest) (offset : Nat) :
    skipFrom false offset (l.spelling ++ rest) = ⟨offset, l.spelling ++ rest⟩ := by
  have hskip : ∀ {c : Char} {cs : List Char}, ¬ isBlank c → ¬ (c = '/' ∧ cs.head? = some '/') →
      skipFrom false offset (c :: cs) = ⟨offset, c :: cs⟩ := by
    intro c cs hblank hslash
    rw [skipFrom, if_neg Bool.false_ne_true, if_neg hblank, if_neg hslash]
  have hpart : ∀ {c : Char} {cs : List Char}, isWordPart c →
      skipFrom false offset (c :: cs) = ⟨offset, c :: cs⟩ := by
    refine fun {c cs} hc ↦ hskip (fun h ↦ ?_) (fun h ↦ ?_)
    · simp only [isBlank, Bool.or_eq_true, decide_eq_true_iff] at h
      rcases h with ((rfl | rfl) | rfl) | rfl <;> exact absurd hc (by decide)
    · obtain ⟨rfl, -⟩ := h
      exact absurd hc (by decide)
  have hdigits : ∀ {ds tail : List Char}, Lexeme.IsDigits ds →
      skipFrom false offset (ds ++ tail) = ⟨offset, ds ++ tail⟩ := by
    rintro (_ | ⟨d, ds⟩) tail ⟨hne, hds⟩
    · exact absurd rfl hne
    · exact hpart (Lexeme.isWordPart_of_isDigit (hds d List.mem_cons_self))
  cases l with
  | symbol s =>
    cases s with
    | slash => exact hskip (by decide) fun h ↦ hrest.2 rfl h.2
    | slashAssign => exact hskip (by decide) fun h ↦ nomatch h.2
    | _ => exact hskip (by decide) fun h ↦ absurd h.1 (by decide)
  | whole digits => exact hdigits hl
  | decimal digits fraction =>
    rw [Lexeme.spelling, List.append_assoc]
    exact hdigits hl.1
  | word letters =>
    obtain ⟨c, cs, rfl, hc, -⟩ := hl
    exact hpart (Lexeme.isWordPart_of_isWordStart hc)
  | quoted q content => cases q <;> exact hskip (by decide) fun h ↦ absurd h.1 (by decide)

/-- The token of a lexeme, behind blanks and comments. -/
theorem token_of_lexes {here : Cursor} {w rest : List Char} {l : Lexeme}
    (h : here.rest = w ++ (l.spelling ++ rest)) (hw : Trivia w) (hl : l.WellFormed)
    (hrest : l.EndsBefore rest) :
    here.token = .ok
      (⟨l.kind, String.ofList l.text,
        .between (here.offset + byteSize w) (here.offset + byteSize w + byteSize l.spelling)⟩,
        ⟨here.offset + byteSize w + byteSize l.spelling, rest⟩) := by
  obtain ⟨c, cs, hcs, hscan⟩ := Lexeme.scan_spelling hl hrest
  rw [token, skipTrivia, h, skipFrom_trivia hw, skipFrom_spelling hl hrest, hcs]
  simp only [hscan]

/-- The token that closes a text. -/
theorem token_of_closingTrivia {here : Cursor} (h : ClosingTrivia here.rest) :
    here.token = .ok (.endOfFile (here.offset + byteSize here.rest),
      ⟨here.offset + byteSize here.rest, []⟩) := by
  rw [token, skipTrivia, skipFrom_closingTrivia h]

theorem tokensFrom_of_token {here there : Cursor} {t : Token} (h : here.token = .ok (t, there))
    (ht : t.kind ≠ .eof) (done : List Token) :
    here.tokensFrom done = there.tokensFrom (t :: done) := by
  rw [tokensFrom]
  split
  · rename_i he
    rw [h] at he
    cases he
  · rename_i ht'
    rw [h] at ht'
    cases ht'
    rw [dif_neg ht]

theorem tokensFrom_of_eof {here there : Cursor} {t : Token} (h : here.token = .ok (t, there))
    (ht : t.kind = .eof) (done : List Token) : here.tokensFrom done = .ok (t :: done).reverse := by
  rw [tokensFrom]
  split
  · rename_i he
    rw [h] at he
    cases he
  · rename_i ht'
    rw [h] at ht'
    cases ht'
    rw [dif_pos ht]

end Cursor

/-! ## Tokens of a text -/

/-- The token of a lexeme that is written behind `start` bytes. -/
def Lexeme.token (l : Lexeme) (start : Nat) : Token :=
  ⟨l.kind, String.ofList l.text, .between start (start + byteSize l.spelling)⟩

/-- The characters behind `offset` bytes write these tokens, the last of which is the end of the
text. -/
inductive Writes : Nat → List Char → List Token → Prop where
  | eof (offset : Nat) {w : List Char} (hw : ClosingTrivia w) :
      Writes offset w [.endOfFile (offset + byteSize w)]
  | cons (offset : Nat) {w rest : List Char} {l : Lexeme} {ts : List Token} (hw : Trivia w)
      (hl : l.WellFormed) (hrest : l.EndsBefore rest)
      (hts : Writes (offset + byteSize w + byteSize l.spelling) rest ts) :
      Writes offset (w ++ (l.spelling ++ rest)) (l.token (offset + byteSize w) :: ts)

/-- Each lexeme of a text has its token. -/
theorem Lexes.exists_writes {cs : List Char} {ls : List Lexeme} (h : Lexes cs ls) (offset : Nat) :
    ∃ ts size, Writes offset cs (ts ++ [.endOfFile size]) ∧
      ts.map (fun t ↦ (t.kind, t.text)) = ls.map fun l ↦ (l.kind, String.ofList l.text) := by
  induction h generalizing offset with
  | nil hw => exact ⟨[], _, .eof offset hw, rfl⟩
  | cons hw hl hrest _ ih =>
    obtain ⟨ts, size, hts, hmap⟩ := ih _
    exact ⟨_ :: ts, size, .cons offset hw hl hrest hts, by rw [List.map_cons, hmap]; rfl⟩

/-- The tokens that a text writes are read one after another. -/
theorem Cursor.tokensFrom_of_writes {offset : Nat} {cs : List Char} {ts : List Token}
    (h : Writes offset cs ts) (done : List Token) :
    tokensFrom ⟨offset, cs⟩ done = .ok (done.reverse ++ ts) := by
  induction h generalizing done with
  | eof offset hw =>
    rw [tokensFrom_of_eof (token_of_closingTrivia hw) rfl, List.reverse_cons]
  | @cons offset w rest l ts hw hl hrest _ ih =>
    have hhere : (⟨offset, w ++ (l.spelling ++ rest)⟩ : Cursor).rest =
        w ++ (l.spelling ++ rest) := rfl
    rw [tokensFrom_of_token (token_of_lexes hhere hw hl hrest) l.kind_ne_eof, ih,
      List.reverse_cons, List.append_assoc]
    rfl

/-- An outcome can be told by its value. -/
theorem eq_ok_of_toOption {ε α : Type} {r : Except ε α} {a : α} (h : r.toOption = some a) :
    r = .ok a := by
  cases r with
  | error => cases h
  | ok b =>
    cases h
    rfl

/-- **A text is read as the lexemes that it writes**, with one token for each and one for the
end. -/
theorem tokenize_of_lexes {source : String} {ls : List Lexeme} (h : Lexes source.toList ls) :
    ∃ ts size, tokenize source = .ok (ts ++ [.endOfFile size]) ∧
      ts.map (fun t ↦ (t.kind, t.text)) = ls.map fun l ↦ (l.kind, String.ofList l.text) := by
  obtain ⟨ts, size, hts, hmap⟩ := h.exists_writes 0
  exact ⟨ts, size, Cursor.tokensFrom_of_writes hts [], hmap⟩

/-- What the grammar sees of the tokens of a text. -/
theorem terminals_of_lexes {source : String} {ls : List Lexeme} (h : Lexes source.toList ls) :
    ∃ ts size, tokenize source = .ok (ts ++ [.endOfFile size]) ∧
      ts.map Token.terminal = ls.map Lexeme.terminal := by
  obtain ⟨ts, size, htokenize, hmap⟩ := tokenize_of_lexes h
  refine ⟨ts, size, htokenize, ?_⟩
  have hterminal := congrArg
    (List.map fun p : TokenKind × String ↦ (⟨p.1, if p.1.hasText then p.2 else ""⟩ : Terminal)) hmap
  rwa [List.map_map, List.map_map] at hterminal

end SvLang
