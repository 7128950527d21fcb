import SvLang.Proofs.Lexing.Tokens

/-!
# Lexers asked again and again

`Answers call s as s'` says that a machine in the state `s`, when it is asked as often as `as` is
long, gives these answers and is in the state `s'` then.  A machine that gives no answer ends the
run.

Two machines that answer alike step by step give the same runs (`Answers.simulate`).  What
`tokenize` returns is what a `Lexer` answers up to the end of the source or the first error
(`Cursor.exists_answers`).
-/

set_option autoImplicit false

namespace SvLang

/-! ## Runs -/

/-- The answers to calls one after another, and the state behind them. -/
inductive Answers {σ α : Type} (call : σ → Option (α × σ)) : σ → List α → σ → Prop
  | nil (s : σ) : Answers call s [] s
  | cons {s s' s'' : σ} {a : α} {as : List α} (h : call s = some (a, s'))
      (has : Answers call s' as s'') : Answers call s (a :: as) s''

namespace Answers

variable {σ τ α : Type} {call : σ → Option (α × σ)} {call' : τ → Option (α × τ)} {s s' s'' : σ}
  {a : α} {as bs : List α}

theorem append (has : Answers call s as s') (hbs : Answers call s' bs s'') :
    Answers call s (as ++ bs) s'' := by
  induction has with
  | nil => exact hbs
  | cons h _ ih => exact .cons h (ih hbs)

/-- One call more. -/
theorem snoc (has : Answers call s as s') (h : call s' = some (a, s'')) :
    Answers call s (as ++ [a]) s'' :=
  has.append (.cons h (.nil s''))

/-- What holds at first and is kept by each call holds behind every run. -/
theorem invariant {I : σ → Prop} (hstep : ∀ s a s', I s → call s = some (a, s') → I s')
    (h : Answers call s as s') (hs : I s) : I s' := by
  induction h with
  | nil => exact hs
  | cons h _ ih => exact ih (hstep _ _ _ hs h)

/-- The run in front of its last call. -/
theorem exists_of_snoc (h : Answers call s (as ++ [a]) s'') :
    ∃ s', Answers call s as s' ∧ call s' = some (a, s'') := by
  induction as generalizing s with
  | nil =>
    obtain _ | ⟨h, hnil⟩ := h
    obtain _ | _ := hnil
    exact ⟨s, .nil s, h⟩
  | cons b as ih =>
    obtain _ | ⟨h, hrest⟩ := h
    obtain ⟨s', has, hlast⟩ := ih hrest
    exact ⟨s', .cons h has, hlast⟩

/-- A machine that answers as another one does, call by call, has its runs. -/
theorem simulate {R : σ → τ → Prop}
    (hstep : ∀ s t a s', R s t → call s = some (a, s') → ∃ t', call' t = some (a, t') ∧ R s' t')
    (h : Answers call s as s') {t : τ} (hst : R s t) :
    ∃ t', Answers call' t as t' ∧ R s' t' := by
  induction h generalizing t with
  | nil => exact ⟨t, .nil t, hst⟩
  | cons h _ ih =>
    obtain ⟨t₁, ht₁, hst₁⟩ := hstep _ _ _ _ hst h
    obtain ⟨t', has, hst'⟩ := ih hst₁
    exact ⟨t', .cons ht₁ has, hst'⟩

end Answers

/-! ## The tokens of a source as answers -/

theorem Lexer.next?_of_token {here there : Cursor} {t : Token}
    (h : here.token = .ok (t, there)) : (between here).next? = some (.ok t, between there) := by
  rw [next?, h]

theorem Lexer.next?_of_error {here : Cursor} {e : LexError} (h : here.token = .error e) :
    (between here).next? = some (.error e, behind here.skipTrivia e.defect) := by
  rw [next?, h]

/-- **The tokens from a place on are what a lexer there answers** up to the end of the source, or up
to the first error. -/
theorem Cursor.exists_answers (here : Cursor) (done : List Token) :
    ∃ ts there, Answers Lexer.next? (.between here) (ts.map .ok) (.between there) ∧
      (∀ t ∈ ts, t.kind ≠ .eof) ∧
        ((∃ e, there.token = .error e ∧ here.tokensFrom done = .error e) ∨
          ∃ t after, there.token = .ok (t, after) ∧ t.kind = .eof ∧
            here.tokensFrom done = .ok (done.reverse ++ ts ++ [t])) := by
  fun_induction tokensFrom here done with
  | case1 here done e h => exact ⟨[], here, .nil _, by simp, .inl ⟨e, h, rfl⟩⟩
  | case2 here done t there h ht =>
    exact ⟨[], here, .nil _, by simp, .inr ⟨t, there, h, ht, by simp⟩⟩
  | case3 here done t there h ht _ ih =>
    obtain ⟨ts, last, has, hts, hend⟩ := ih
    refine ⟨t :: ts, last, .cons (Lexer.next?_of_token h) has, List.forall_mem_cons.2 ⟨ht, hts⟩, ?_⟩
    rcases hend with herror | ⟨eof, after, htoken, heof, hout⟩
    · exact .inl herror
    · exact .inr ⟨eof, after, htoken, heof, by simp [hout]⟩

end SvLang
