import Mathlib.Data.List.TakeWhile
import SvLang.Proofs.Lexing.Runs
import SvLang.Proofs.Lexing.Slice

/-!
# The first spot that is no lexeme

A source that is not read has a first spot at which no lexeme starts, and that is where the error
points (`isFirst_of_tokenize`).  What stands in front of the spot is a text of its own, and it is
read as the tokens that came before the error.  That does not go without saying: the lexemes in
front of the spot were read with the whole source ahead of them, and cutting the source off must not
change where they end (`Lexeme.EndsBefore.of_append`).
-/

set_option autoImplicit false

namespace SvLang

/-! ## Why no lexeme can be read -/

namespace Lexeme

/-- What a defect says about the character at which it is met, and about the text behind it. -/
def Defect.IsAt : Defect → Char → List Char → Prop
  | .unrecognized d, c, after =>
    d = c ∧ ¬ isBlank c ∧ ¬ isWordPart c ∧ (∀ q : Quote, c ≠ q.mark) ∧
      (∀ s : Symbol, s.spelling ≠ [c]) ∧ (c = '!' → after.head? ≠ some '=')
  | .unterminated q, c, after => c = q.mark ∧ q.mark ∉ after

variable {c : Char} {cs : List Char}

/-- A symbol of one character is found by it. -/
theorem ofChar?_eq_none_iff : Symbol.ofChar? c = none ↔ ∀ s : Symbol, s.spelling ≠ [c] := by
  constructor
  · intro hnone s hs
    rcases s.spelling_cases with ⟨d, hd, hsome⟩ | ⟨d, d', hd, -⟩
    · obtain rfl : d = c := by simpa [hd] using hs
      rw [hnone] at hsome
      simp at hsome
    · simp [hd] at hs
  · intro hs
    by_contra hne
    obtain ⟨s, hsome⟩ := Option.ne_none_iff_exists'.1 hne
    exact hs s (Symbol.spelling_ofChar? hsome)

theorem leadingSymbol?_eq_none_iff :
    leadingSymbol? c cs = none ↔
      Symbol.ofChar? c = none ∧ ∀ d ∈ cs.head?, Symbol.ofPair? c d = none := by
  rw [leadingSymbol?.eq_def]
  split
  · simp
  · split <;> simp_all

/-- Why nothing is read: no class of lexemes starts with the character, or a text has no end. -/
theorem scan_error_cases {d : Defect} (h : scan c cs = .error d) :
    (d = .unrecognized c ∧ leadingSymbol? c cs = none ∧ Quote.ofChar? c = none ∧ ¬ c.isDigit ∧
        ¬ isWordStart c) ∨
      ∃ q : Quote, c = q.mark ∧ d = .unterminated q ∧ q.mark ∉ cs := by
  rw [scan] at h
  split at h
  · simp at h
  rename_i hsymbol
  split at h
  · rename_i q hq
    rw [leadingText] at h
    split at h
    · simp at h
    · rename_i hnone
      obtain rfl := Except.error.inj h
      refine .inr ⟨q, (Quote.mark_ofChar? hq).symm, rfl, fun hmem ↦ ?_⟩
      -- A mark further on would have stopped the search for it.
      simpa using List.dropWhile_eq_nil_iff.1 hnone _ hmem
  · rename_i hquote
    split at h
    · simp at h
    rename_i hdigit
    split at h
    · simp at h
    rename_i hword
    obtain rfl := Except.error.inj h
    exact .inl ⟨rfl, hsymbol, hquote, hdigit, hword⟩

/-- What stands where a defect is met. -/
theorem isAt_of_scan {d : Defect} (h : scan c cs = .error d) (hstart : StartsLexeme (c :: cs)) :
    d.IsAt c cs := by
  obtain ⟨_, _, heq, hblank, -⟩ := hstart
  obtain ⟨rfl, rfl⟩ := List.cons.inj heq
  rcases scan_error_cases h with ⟨rfl, hsymbol, hquote, hdigit, hword⟩ | ⟨q, rfl, rfl, hmem⟩
  · obtain ⟨hsingle, hpair⟩ := leadingSymbol?_eq_none_iff.1 hsymbol
    refine ⟨rfl, hblank, ?_, ?_, ofChar?_eq_none_iff.1 hsingle, ?_⟩
    · simp only [isWordPart, isWordStart, Char.isAlphanum, Bool.or_eq_true] at hword ⊢
      tauto
    · rintro q rfl
      rw [ofChar?_mark] at hquote
      simp at hquote
    · rintro rfl hhead
      exact absurd (hpair '=' hhead) (by decide)
  · exact ⟨rfl, hmem⟩

/-- A lexeme ends in front of a text, and so it does in front of less of it. -/
theorem EndsBefore.of_append {l : Lexeme} {front back : List Char}
    (h : l.EndsBefore (front ++ back)) :
    l.EndsBefore front := by
  rcases front with _ | ⟨d, front⟩
  · exact l.endsBefore_nil
  cases l with
  | whole digits =>
    refine ⟨h.1, ?_⟩
    rintro e es ⟨⟩
    exact h.2 e (es ++ back) rfl
  | _ => exact h

end Lexeme

namespace Cursor

/-- An error is met behind blanks and comments, where neither starts. -/
theorem error_cases {here : Cursor} {e : LexError} (h : here.token = .error e) :
    ∃ w c cs, here.rest = w ++ c :: cs ∧ Trivia w ∧ StartsLexeme (c :: cs) ∧
      e.offset = here.offset + byteSize w ∧ Lexeme.scan c cs = .error e.defect := by
  rcases trivia_cases here.rest with ⟨w, rest, hrest, hw, hstart⟩ | hw
  · obtain ⟨c, cs, rfl, -⟩ := id hstart
    have hskip := skipTrivia_of_startsLexeme hrest hw hstart
    cases hscan : Lexeme.scan c cs with
    | ok r =>
      rw [token_of_scan hskip hscan] at h
      simp at h
    | error d =>
      rw [token_of_scan_error hskip hscan] at h
      obtain rfl := Except.error.inj h
      exact ⟨w, c, cs, hrest, hw, hstart, rfl, hscan⟩
  · rw [token_of_closingTrivia hw] at h
    simp at h

/-- What a lexer has passed is a text of its own and writes the tokens that were answered. -/
theorem exists_writes_of_answers {here there : Cursor} {ts : List Token} {w back : List Char}
    (h : Answers Lexer.next? (.between here) (ts.map .ok) (.between there))
    (hts : ∀ t ∈ ts, t.kind ≠ .eof) (hback : there.rest = w ++ back) (hw : Trivia w) :
    ∃ front, here.rest = front ++ back ∧ there.offset + byteSize w = here.offset + byteSize front ∧
      Writes here.offset front (ts ++ [.endOfFile (here.offset + byteSize front)]) := by
  induction ts generalizing here with
  | nil =>
    obtain _ | _ := h
    have hclosing := hw.append_closing closingTrivia_nil
    rw [List.append_nil] at hclosing
    exact ⟨w, hback, rfl, .eof _ hclosing⟩
  | cons t ts ih =>
    rw [List.forall_mem_cons] at hts
    obtain _ | ⟨hfirst, hrest⟩ := h
    rw [Lexer.next?] at hfirst
    split at hfirst
    · rename_i next htoken
      obtain ⟨rfl, rfl⟩ : _ ∧ _ := by simpa using hfirst
      rcases token_cases htoken with ⟨-, rfl⟩ | ⟨v, l, rest, hhere, hv, hl, hends, rfl, rfl⟩
      · exact absurd rfl hts.1
      · obtain ⟨front, rfl, hoffset, hwrites⟩ := ih hrest hts.2
        have hsize : here.offset + byteSize v + byteSize l.spelling + byteSize front =
            here.offset + byteSize (v ++ (l.spelling ++ front)) := by
          simp only [byteSize_append, Nat.add_assoc]
        rw [hsize] at hoffset hwrites
        refine ⟨v ++ (l.spelling ++ front), by simp [hhere], hoffset, ?_⟩
        exact .cons _ hv hl hends.of_append hwrites
    · simp at hfirst

end Cursor

/-! ## The whole source -/

/-- The error is the first spot of the source at which no lexeme starts. -/
structure LexError.IsFirst (source : String) (e : LexError) : Prop where
  /-- The spot lies in the source. -/
  offset_lt : e.offset < source.utf8ByteSize
  /-- It falls between two characters. -/
  isBoundary : IsBoundary source e.offset
  /-- The source in front of it is read, and its tokens are the ones that a lexer answers before it
  comes to the error. -/
  front : ∃ ts, (∀ t ∈ ts, t.kind ≠ .eof) ∧
    tokenize (slice source 0 e.offset) = .ok (ts ++ [.endOfFile e.offset]) ∧
      ∃ l l', Answers Lexer.next? (.ofSource source) (ts.map .ok) l ∧ l.next? = some (.error e, l')
  /-- What is wrong is there. -/
  isAt : ∃ before c after, source.toList = before ++ c :: after ∧ byteSize before = e.offset ∧
    e.defect.IsAt c after

/-- **An error points at the first spot that is no lexeme**, and all in front of it is read as it
would be without the rest. -/
theorem isFirst_of_tokenize {source : String} {e : LexError} (h : tokenize source = .error e) :
    e.IsFirst source := by
  obtain ⟨ts, there, has, hts, hend⟩ := (Cursor.start source).exists_answers []
  rcases hend with ⟨e', herror, h'⟩ | ⟨t, after, -, -, h'⟩
  swap
  · rw [tokenize, h'] at h
    simp at h
  obtain rfl : e' = e := by simpa [tokenize, h'] using h
  obtain ⟨w, c, cs, hback, hw, hstart, hoffset, hscan⟩ := Cursor.error_cases herror
  obtain ⟨front, hsource, hsize, hwrites⟩ := Cursor.exists_writes_of_answers has hts hback hw
  change source.toList = front ++ c :: cs at hsource
  change _ = 0 + byteSize front at hsize
  have hfront : byteSize front = e'.offset := by omega
  have hslice : slice source 0 (byteSize front) = String.ofList front := by
    have hwhole : slice source (byteSize []) (byteSize [] + byteSize front) = _ :=
      slice_of_append hsource
    rwa [byteSize_nil, Nat.zero_add] at hwhole
  constructor
  case offset_lt =>
    have hpos := c.utf8Size_pos
    rw [← byteSize_toList, hsource, byteSize_append, byteSize_cons]
    omega
  case isBoundary => exact hfront ▸ isBoundary_of_append hsource
  case front =>
    refine ⟨ts, hts, ?_, _, _, has, Lexer.next?_of_error herror⟩
    rw [← hfront, hslice, tokenize_eq_ok_iff, String.toList_ofList]
    simpa [Cursor.start] using hwrites
  case isAt => exact ⟨front, c, cs, hsource, hfront, Lexeme.isAt_of_scan hscan hstart⟩

/-- A number in front of a point without digits. -/
theorem isFirst_of_tokenize_point : (⟨6, .unrecognized '.'⟩ : LexError).IsFirst "\"ü\" 1. x" :=
  isFirst_of_tokenize (by decide +kernel)

end SvLang
