import SvLang.Proofs.Lexing.Munch
import SvLang.Proofs.Lexing.Text

/-!
# Every source that is read writes its tokens

The converse of reading a text back: whatever a source is, if it is read without error, then it
writes the tokens that come out (`tokenize_eq_ok_iff`).  Between the tokens nothing but blanks and
comments has been skipped, because a text starts with these up to a character that is neither
(`trivia_cases`).
-/

set_option autoImplicit false

namespace SvLang

/-! ## Blanks and comments at the front of a text -/

theorem Trivia.append {v w : List Char} (hv : Trivia v) (hw : Trivia w) : Trivia (v ++ w) := by
  induction hv with
  | nil => exact hw
  | blank hc _ ih => exact .blank hc ih
  | comment hbody _ ih =>
    rw [List.cons_append, List.cons_append, List.append_assoc, List.cons_append]
    exact .comment hbody ih

theorem Trivia.append_closing {v w : List Char} (hv : Trivia v) (hw : ClosingTrivia w) :
    ClosingTrivia (v ++ w) := by
  obtain ⟨w, tail, rfl, hw, htail⟩ := hw
  exact ⟨v ++ w, tail, (List.append_assoc ..).symm, hv.append hw, htail⟩

/-- The characters neither start with a blank nor with a comment. -/
def StartsLexeme (cs : List Char) : Prop :=
  ∃ c rest, cs = c :: rest ∧ ¬ isBlank c ∧ ¬ (c = '/' ∧ rest.head? = some '/')

/-- A text starts with blanks and comments, up to a character that is neither, or up to its end. -/
theorem trivia_cases (cs : List Char) :
    (∃ w rest, cs = w ++ rest ∧ Trivia w ∧ StartsLexeme rest) ∨ ClosingTrivia cs := by
  induction hn : cs.length using Nat.strongRecOn generalizing cs with
  | _ n ih =>
  -- Behind a blank or a whole comment, the text that is left is shorter.
  have hbehind : ∀ v cs', cs = v ++ cs' → v ≠ [] → Trivia v →
      (∃ w rest, cs = w ++ rest ∧ Trivia w ∧ StartsLexeme rest) ∨ ClosingTrivia cs := by
    rintro v cs' rfl hne hv
    have hlt : cs'.length < n := by
      have := List.length_pos_iff.2 hne
      rw [← hn, List.length_append]
      omega
    rcases ih _ hlt cs' rfl with ⟨w, rest, rfl, hw, hrest⟩ | hw
    · exact .inl ⟨v ++ w, rest, (List.append_assoc ..).symm, hv.append hw, hrest⟩
    · exact .inr (hv.append_closing hw)
  rcases cs with _ | ⟨c, cs⟩
  · exact .inr closingTrivia_nil
  by_cases hblank : isBlank c
  · exact hbehind [c] cs rfl (List.cons_ne_nil _ _) (.blank hblank .nil)
  by_cases hslash : c = '/' ∧ cs.head? = some '/'
  · obtain ⟨rfl, hhead⟩ := hslash
    obtain ⟨cs, rfl⟩ := List.head?_eq_some_iff.1 hhead
    by_cases hnewline : '\n' ∈ cs
    · obtain ⟨body, cs', rfl, hbody⟩ := List.eq_append_cons_of_mem hnewline
      exact hbehind ('/' :: '/' :: (body ++ ['\n'])) cs' (by simp) (by simp) (.comment hbody .nil)
    · exact .inr ⟨[], _, rfl, .nil, .inr ⟨cs, rfl, hnewline⟩⟩
  · exact .inl ⟨[], c :: cs, rfl, .nil, c, cs, rfl, hblank, hslash⟩

/-! ## One token -/

namespace Cursor

theorem skipFrom_of_startsLexeme {cs : List Char} (h : StartsLexeme cs) (offset : Nat) :
    skipFrom false offset cs = ⟨offset, cs⟩ := by
  obtain ⟨c, rest, rfl, hblank, hslash⟩ := h
  rw [skipFrom, if_neg Bool.false_ne_true, if_neg hblank, if_neg hslash]

/-- Blanks and comments are skipped up to a lexeme. -/
theorem skipTrivia_of_startsLexeme {here : Cursor} {w rest : List Char} (h : here.rest = w ++ rest)
    (hw : Trivia w) (hrest : StartsLexeme rest) :
    here.skipTrivia = ⟨here.offset + byteSize w, rest⟩ := by
  rw [skipTrivia, h, skipFrom_trivia hw, skipFrom_of_startsLexeme hrest]

section Scan

variable {here : Cursor} {offset : Nat} {c : Char} {cs : List Char}

/-- The token is that of the lexeme at the front. -/
theorem token_of_scan {rest : List Char} {l : Lexeme} (h : here.skipTrivia = ⟨offset, c :: cs⟩)
    (hscan : Lexeme.scan c cs = .ok (l, rest)) :
    here.token = .ok (l.token offset, ⟨offset + byteSize l.spelling, rest⟩) := by
  rw [token, h]
  simp only [hscan]
  rfl

theorem token_of_scan_error {d : Lexeme.Defect} (h : here.skipTrivia = ⟨offset, c :: cs⟩)
    (hscan : Lexeme.scan c cs = .error d) : here.token = .error ⟨offset, d⟩ := by
  rw [token, h]
  simp only [hscan]

end Scan

/-- A token that is read is the end of the text or comes from a lexeme behind blanks and
comments. -/
theorem token_cases {here there : Cursor} {t : Token} (h : here.token = .ok (t, there)) :
    ClosingTrivia here.rest ∧ t = .endOfFile (here.offset + byteSize here.rest) ∨
      ∃ (w : List Char) (l : Lexeme) (rest : List Char), here.rest = w ++ (l.spelling ++ rest) ∧
        Trivia w ∧ l.WellFormed ∧ l.EndsBefore rest ∧ t = l.token (here.offset + byteSize w) ∧
          there = ⟨here.offset + byteSize w + byteSize l.spelling, rest⟩ := by
  rcases trivia_cases here.rest with ⟨w, _, hrest, hw, c, cs, rfl, hstart⟩ | hw
  · have hskip := skipTrivia_of_startsLexeme hrest hw ⟨c, cs, rfl, hstart⟩
    cases hscan : Lexeme.scan c cs with
    | ok r =>
      obtain ⟨l, rest⟩ := r
      rw [token_of_scan hskip hscan] at h
      obtain ⟨rfl, rfl⟩ := Prod.mk.inj (Except.ok.inj h)
      refine .inr ⟨w, l, rest, ?_, hw, Lexeme.wellFormed_of_scan hscan,
        Lexeme.endsBefore_of_scan hscan hstart.2, rfl, rfl⟩
      rw [hrest, Lexeme.spelling_append_of_scan hscan]
    | error d =>
      rw [token_of_scan_error hskip hscan] at h
      simp at h
  · rw [token_of_closingTrivia hw] at h
    cases h
    exact .inl ⟨hw, rfl⟩

/-! ## All tokens -/

theorem tokensFrom_eq_ok_iff {here : Cursor} {done out : List Token} :
    here.tokensFrom done = .ok out ↔
      ∃ ts, out = done.reverse ++ ts ∧ Writes here.offset here.rest ts := by
  constructor
  · intro h
    fun_induction tokensFrom here done with
    | case1 => cases h
    | case2 here done t there ht heof =>
      cases h
      refine ⟨[t], List.reverse_cons, ?_⟩
      rcases token_cases ht with ⟨hw, rfl⟩ | ⟨w, l, rest, -, -, -, -, rfl, -⟩
      · exact .eof _ hw
      · exact absurd heof l.kind_ne_eof
    | case3 here done t there ht heof _ ih =>
      obtain ⟨ts, rfl, hts⟩ := ih h
      refine ⟨t :: ts, by simp, ?_⟩
      rcases token_cases ht with ⟨-, rfl⟩ | ⟨w, l, rest, hrest, hw, hl, hends, rfl, rfl⟩
      · exact absurd rfl heof
      · rw [hrest]
        exact .cons _ hw hl hends hts
  · rintro ⟨ts, rfl, hts⟩
    exact tokensFrom_of_writes hts done

end Cursor

/-- **A source is read as some tokens if and only if it writes them.** -/
theorem tokenize_eq_ok_iff {source : String} {ts : List Token} :
    tokenize source = .ok ts ↔ Writes 0 source.toList ts := by
  rw [tokenize, Cursor.tokensFrom_eq_ok_iff]
  simp [Cursor.start]

/-- A token that is not the end of the text comes from a lexeme. -/
theorem Writes.exists_lexeme {offset : Nat} {cs : List Char} {ts : List Token}
    (h : Writes offset cs ts) {t : Token} (ht : t ∈ ts) (hkind : t.kind ≠ .eof) :
    ∃ l : Lexeme, l.WellFormed ∧ t.kind = l.kind ∧ t.text = String.ofList l.text := by
  induction h with
  | eof =>
    rw [List.mem_singleton.1 ht] at hkind
    exact absurd rfl hkind
  | @cons _ _ _ l _ _ hl _ _ ih =>
    rcases List.mem_cons.1 ht with rfl | ht
    · exact ⟨l, hl, rfl, rfl⟩
    · exact ih ht

end SvLang
