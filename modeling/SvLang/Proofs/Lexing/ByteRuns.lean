import SvLang.Proofs.Lexing.ByteLexer
import SvLang.Proofs.Lexing.Lossless

/-!
# Any run of a lexer

A lexer may be asked again behind an error, as often as one likes.  The lexer over bytes and the one
over characters answer alike then (`Together.step`), so that the one over bytes fails to answer
exactly where the other one stands inside a character.  `sound_ofSource` says of every run from the
front of a source when a call fails, how far each call moves, and what follows behind an error and
behind the end.
-/

set_option autoImplicit false

namespace SvLang

namespace ByteLexer

/-! ## One call -/

/-- The lexer over bytes stands where the one over characters does. -/
inductive At (m : ByteLexer) : Lexer → Prop where
  | between {before rest : List Char} (h : m.Stands before rest) :
      m.At (.between ⟨byteSize before, rest⟩)
  | inside {before after : List Char} {c : Char} (htext : m.text.toList = before ++ c :: after)
      (hc : 2 ≤ c.utf8Size) (hpos : m.pos = byteSize before + 1) :
      m.At (.inside (byteSize before + 1))

/-- How far a call moves, by its answer. -/
inductive Moves (m m' : ByteLexer) : Except LexError Token → Prop where
  | eof (hpos : m'.pos = m.text.utf8ByteSize) : Moves m m' (.ok (.endOfFile m.text.utf8ByteSize))
  | token {t : Token} (ht : t.kind ≠ .eof) (hpos : m.pos < m'.pos) : Moves m m' (.ok t)
  | unrecognized {offset : Nat} {c : Char} (hoffset : m.pos ≤ offset) (hpos : m'.pos = offset + 1) :
      Moves m m' (.error ⟨offset, .unrecognized c⟩)
  | unterminated {offset : Nat} {q : Quote} (hlt : m.pos < m'.pos)
      (hpos : m'.pos = m.text.utf8ByteSize) : Moves m m' (.error ⟨offset, .unterminated q⟩)

variable {m m' : ByteLexer} {l l' : Lexer} {before rest : List Char}

/-- Inside a character no slice can be taken. -/
theorem next?_inside {after : List Char} {c : Char} (htext : m.text.toList = before ++ c :: after)
    (hc : 2 ≤ c.utf8Size) (hpos : m.pos = byteSize before + 1) : m.next? = none := by
  have hlarge : 128 ≤ c.toNat := by
    by_contra hascii
    rw [utf8Size_of_lt (Nat.not_le.1 hascii)] at hc
    exact absurd hc (by decide)
  -- The byte ahead is not the first one of the character.
  obtain ⟨b, bs, hahead, hmem⟩ : ∃ b bs, m.ahead = b :: bs ∧ b ∈ bytesOf c := by
    have hfirst : (⟨m.text, byteSize before⟩ : ByteLexer).Stands before (c :: after) := ⟨htext, rfl⟩
    have hskip : m = (⟨m.text, byteSize before⟩ : ByteLexer).skip 1 := by rw [skip, ← hpos]
    have hlength := length_bytesOf c
    rcases hbytes : bytesOf c with _ | ⟨b₀, _ | ⟨b, bs⟩⟩
    · exact absurd hbytes (bytesOf_ne_nil c)
    · rw [hbytes, List.length_singleton] at hlength
      omega
    · refine ⟨b, bs ++ bytesOfAll after, ?_, by simp⟩
      rw [hskip, ahead_skip, hfirst.ahead, bytesOfAll_cons, hbytes]
      rfl
  have hb : 128 ≤ b.toNat := le_of_mem_bytesOf hlarge hmem
  have hskip : m.skipTrivia = m := by
    refine skipTrivia_eq_self ?_ ?_
    · rw [hahead]
      rintro _ ⟨⟩ hblank
      exact Nat.not_lt.2 hb (toNat_lt_of_isBlank hblank)
    · rw [hahead]
      rintro ⟨_, h⟩
      obtain ⟨rfl, -⟩ := List.cons.inj h
      exact absurd hb (by decide)
  have hslice : m.slice? m.pos m.text.utf8ByteSize = none := by
    rw [slice?, if_neg]
    rintro ⟨-, hboundary, -⟩
    rw [hpos] at hboundary
    exact not_isBoundary_of_append htext Nat.zero_lt_one hc hboundary
  rw [next?, hskip, read_of_large hahead hb]
  change (m.slice? m.pos m.text.utf8ByteSize).map _ = none
  rw [hslice, Option.map_none]

theorem Stands.read_end (h : m.Stands before []) :
    m.read = some (.ok (.endOfFile m.text.utf8ByteSize), m) := by
  have hahead : m.ahead = [] := h.ahead
  rw [read, hahead, h.size]
  rfl

/-- A call that both lexers answer alike. -/
structure Agree (m : ByteLexer) (l : Lexer) (a : Except LexError Token) (m' : ByteLexer)
    (l' : Lexer) : Prop where
  bytes : m.next? = some (a, m')
  characters : l.next? = some (a, l')
  text : m'.text = m.text
  place : m'.At l'
  moves : Moves m m' a

namespace Stands

theorem agree_end (h : m.Stands before rest) (hw : ClosingTrivia rest) :
    Agree m (.between ⟨byteSize before, rest⟩) (.ok (.endOfFile m.text.utf8ByteSize))
      (m.skip (byteSize rest)) (.between ⟨m.text.utf8ByteSize, []⟩) := by
  have hend : (m.skip (byteSize rest)).Stands (before ++ rest) [] :=
    skip (by rwa [List.append_nil])
  have hsize : m.text.utf8ByteSize = byteSize before + byteSize rest := h.pos ▸ h.size
  constructor
  case bytes => rw [next?, skipTrivia_closingTrivia h hw, hend.read_end, text_skip]
  case characters =>
    rw [hsize]
    exact Lexer.next?_of_token (Cursor.token_of_closingTrivia hw)
  case text => rw [text_skip]
  case place =>
    rw [hsize, ← byteSize_append]
    exact .between hend
  case moves => exact .eof (by rw [pos_skip, h.size])

variable {w : List Char} {c : Char} {cs : List Char}

theorem skipTrivia_between (hw : Trivia w) (hstart : StartsLexeme (c :: cs)) :
    Cursor.skipTrivia ⟨byteSize before, w ++ c :: cs⟩ = ⟨byteSize (before ++ w), c :: cs⟩ := by
  rw [byteSize_append]
  exact Cursor.skipTrivia_of_startsLexeme rfl hw hstart

theorem agree_lexeme {l : Lexeme} {rest' : List Char} (h : m.Stands before (w ++ c :: cs))
    (hw : Trivia w) (hstart : StartsLexeme (c :: cs)) (hscan : Lexeme.scan c cs = .ok (l, rest')) :
    Agree m (.between ⟨byteSize before, w ++ c :: cs⟩) (.ok (l.token (byteSize (before ++ w))))
      ((m.skip (byteSize w)).skip (byteSize l.spelling))
      (.between ⟨byteSize (before ++ w ++ l.spelling), rest'⟩) := by
  have hl := Lexeme.wellFormed_of_scan hscan
  have hends : l.EndsBefore rest' := by
    obtain ⟨_, _, heq, -, hslash⟩ := hstart
    obtain ⟨rfl, rfl⟩ := List.cons.inj heq
    exact Lexeme.endsBefore_of_scan hscan hslash
  have hlexeme : (m.skip (byteSize w)).Stands (before ++ w) (l.spelling ++ rest') := by
    rw [Lexeme.spelling_append_of_scan hscan]
    exact h.skip
  constructor
  case bytes =>
    rw [next?, skipTrivia_trivia h hw, skipTrivia_of_startsLexeme h.skip hstart,
      read_lexeme hlexeme hl hends]
  case characters =>
    rw [byteSize_append (before ++ w)]
    exact Lexer.next?_of_token (Cursor.token_of_scan (skipTrivia_between hw hstart) hscan)
  case text => rw [text_skip, text_skip]
  case place => exact .between hlexeme.skip
  case moves =>
    have hpos := Lexeme.byteSize_spelling_pos hl
    refine .token l.kind_ne_eof ?_
    simp only [pos_skip]
    omega

theorem agree_unrecognized (h : m.Stands before (w ++ c :: cs)) (hw : Trivia w)
    (hstart : StartsLexeme (c :: cs)) (hscan : Lexeme.scan c cs = .error (.unrecognized c)) :
    Agree m (.between ⟨byteSize before, w ++ c :: cs⟩)
      (.error ⟨byteSize (before ++ w), .unrecognized c⟩) ((m.skip (byteSize w)).skip 1)
      (if c.utf8Size = 1 then .between ⟨byteSize (before ++ w) + 1, cs⟩
        else .inside (byteSize (before ++ w) + 1)) := by
  have htrivia : Cursor.skipTrivia ⟨byteSize before, w ++ c :: cs⟩ = _ :=
    skipTrivia_between hw hstart
  constructor
  case bytes =>
    rw [next?, skipTrivia_trivia h hw, skipTrivia_of_startsLexeme h.skip hstart,
      read_unrecognized h.skip hscan]
  case characters =>
    rw [Lexer.next?_of_error (Cursor.token_of_scan_error htrivia hscan), htrivia]
    rfl
  case text => rw [text_skip, text_skip]
  case place =>
    have hnext : (m.skip (byteSize w)).Stands (before ++ w) ([c] ++ cs) := h.skip
    split
    · rename_i hc
      have hat := At.between hnext.skip
      rwa [byteSize_append _ [c], byteSize_cons, hc] at hat
    · have hpos := c.utf8Size_pos
      refine .inside hnext.text (by omega) ?_
      rw [pos_skip, hnext.pos]
  case moves =>
    refine .unrecognized ?_ ?_
    · rw [h.pos, byteSize_append]
      exact Nat.le_add_right _ _
    · rw [pos_skip, h.skip.pos]

theorem agree_unterminated {q : Quote} (h : m.Stands before (w ++ q.mark :: cs)) (hw : Trivia w)
    (hstart : StartsLexeme (q.mark :: cs))
    (hscan : Lexeme.scan q.mark cs = .error (.unterminated q)) (hcs : q.mark ∉ cs) :
    Agree m (.between ⟨byteSize before, w ++ q.mark :: cs⟩)
      (.error ⟨byteSize (before ++ w), .unterminated q⟩)
      ((m.skip (byteSize w)).skip (byteSize (q.mark :: cs)))
      (.between ⟨byteSize (before ++ w ++ q.mark :: cs), []⟩) := by
  have htrivia : Cursor.skipTrivia ⟨byteSize before, w ++ q.mark :: cs⟩ = _ :=
    skipTrivia_between hw hstart
  have hend : ((m.skip (byteSize w)).skip (byteSize (q.mark :: cs))).Stands
      (before ++ w ++ q.mark :: cs) [] := by
    refine skip ?_
    rw [List.append_nil]
    exact h.skip
  constructor
  case bytes =>
    rw [next?, skipTrivia_trivia h hw, skipTrivia_of_startsLexeme h.skip hstart,
      read_unterminated h.skip hcs]
  case characters =>
    rw [Lexer.next?_of_error (Cursor.token_of_scan_error htrivia hscan), htrivia,
      byteSize_append (before ++ w)]
    rfl
  case text => rw [text_skip, text_skip]
  case place => exact .between hend
  case moves =>
    refine .unterminated ?_ ?_
    · have hpos := q.mark.utf8Size_pos
      simp only [pos_skip, byteSize_cons]
      omega
    · rw [h.size, pos_skip, pos_skip, byteSize_append, Nat.add_assoc]

/-- Between two characters both lexers give the same answer. -/
theorem exists_agree (h : m.Stands before rest) :
    ∃ a m' l', Agree m (.between ⟨byteSize before, rest⟩) a m' l' := by
  rcases trivia_cases rest with ⟨w, rest, rfl, hw, hstart⟩ | hw
  · obtain ⟨c, cs, rfl, -⟩ := id hstart
    cases hscan : Lexeme.scan c cs with
    | ok r => exact ⟨_, _, _, agree_lexeme h hw hstart hscan⟩
    | error d =>
      rcases Lexeme.scan_error_cases hscan with ⟨rfl, -⟩ | ⟨q, rfl, rfl, hcs⟩
      · exact ⟨_, _, _, agree_unrecognized h hw hstart hscan⟩
      · exact ⟨_, _, _, agree_unterminated h hw hstart hscan hcs⟩
  · exact ⟨_, _, _, agree_end h hw⟩

end Stands

/-! ## Runs -/

theorem At.pos_le (h : m.At l) : m.pos ≤ m.text.utf8ByteSize := by
  cases h with
  | between h =>
    rw [h.size]
    exact Nat.le_add_right _ _
  | inside htext hc hpos =>
    rw [← byteSize_toList, htext, byteSize_append, byteSize_cons]
    omega

/-- Both lexers stand at the same place of one source. -/
def Together (source : String) (m : ByteLexer) (l : Lexer) : Prop := m.text = source ∧ m.At l

variable {source : String} {a : Except LexError Token} {as : List (Except LexError Token)}

theorem together_ofSource (source : String) :
    Together source (ofSource source) (.ofSource source) := by
  refine ⟨rfl, ?_⟩
  show (ofSource source).At (.between ⟨byteSize [], source.toList⟩)
  exact .between ⟨rfl, rfl⟩

/-- **The two lexers answer alike.**  Either both answer, or none does, and then they stand inside a
character. -/
theorem Together.step (h : Together source m l) :
    (m.next? = none ∧ ∃ offset, l = .inside offset) ∨
      ∃ a m' l', m.next? = some (a, m') ∧ l.next? = some (a, l') ∧ Together source m' l' ∧
        Moves m m' a := by
  obtain ⟨rfl, hat⟩ := h
  cases hat with
  | between h =>
    obtain ⟨a, m', l', hcall⟩ := h.exists_agree
    exact .inr ⟨a, m', l', hcall.bytes, hcall.characters, ⟨hcall.text, hcall.place⟩, hcall.moves⟩
  | inside htext hc hpos => exact .inl ⟨next?_inside htext hc hpos, _, rfl⟩

theorem Together.bytes (h : Together source m l) (hcall : l.next? = some (a, l')) :
    ∃ m', m.next? = some (a, m') ∧ Together source m' l' := by
  rcases h.step with ⟨-, offset, rfl⟩ | ⟨a', m', l'', hm, hl, hnext, -⟩
  · cases hcall
  · rw [hl] at hcall
    obtain ⟨rfl, rfl⟩ := Prod.mk.inj (Option.some.inj hcall)
    exact ⟨m', hm, hnext⟩

theorem Together.characters (h : Together source m l) (hcall : m.next? = some (a, m')) :
    ∃ l', l.next? = some (a, l') ∧ Together source m' l' ∧ Moves m m' a := by
  rcases h.step with ⟨hnone, -⟩ | ⟨a', m'', l', hm, hl, hnext, hmoves⟩
  · rw [hnone] at hcall
    simp at hcall
  · rw [hm] at hcall
    obtain ⟨rfl, rfl⟩ := Prod.mk.inj (Option.some.inj hcall)
    exact ⟨l', hl, hnext, hmoves⟩

/-- Every call from here on answers with the end of the source. -/
def Ended (source : String) (m : ByteLexer) : Prop :=
  ∀ as m', Answers next? m as m' →
    m'.next? = some (.ok (.endOfFile source.utf8ByteSize), m')

/-- Behind the last byte there is nothing but the end. -/
theorem Together.next?_end (h : Together source m l) (hpos : m.pos = source.utf8ByteSize) :
    m.next? = some (.ok (.endOfFile source.utf8ByteSize), m) := by
  obtain ⟨rfl, hat⟩ := h
  cases hat with
  | @between before rest h =>
    have hsize := h.size
    obtain rfl : rest = [] := byteSize_eq_zero (by omega)
    exact (h.agree_end closingTrivia_nil).bytes
  | inside htext hc hinside =>
    rw [← byteSize_toList, htext, byteSize_append, byteSize_cons] at hpos
    omega

theorem Together.ended (h : Together source m l) (hpos : m.pos = source.utf8ByteSize) :
    Ended source m := by
  have hend := h.next?_end hpos
  intro as m' hanswers
  obtain rfl : m' = m := by
    refine hanswers.invariant (I := (· = m)) ?_ rfl
    rintro m₁ a m₂ rfl hcall
    rw [hend] at hcall
    exact (Prod.mk.inj (Option.some.inj hcall)).2.symm
  exact hend

/-- What any calls one after another come to: their answers, and where the lexer stands then. -/
structure Regular (source : String) (as : List (Except LexError Token)) (m : ByteLexer) : Prop where
  /-- The lexer never passes the end. -/
  pos_le : m.pos ≤ source.utf8ByteSize
  /-- A call fails in one case only. -/
  fails_iff : m.next? = none ↔
    ∃ as' offset c, as = as' ++ [.error ⟨offset, .unrecognized c⟩] ∧ 2 ≤ c.utf8Size
  /-- Every call that does not answer with the end moves on. -/
  pos_lt : ∀ a m', m.next? = some (a, m') → (∀ t, a = .ok t → t.kind ≠ .eof) → m.pos < m'.pos
  /-- A call that meets a character it does not know stops one byte behind its front. -/
  unrecognized : ∀ offset c m', m.next? = some (.error ⟨offset, .unrecognized c⟩, m') →
    m'.pos = offset + 1
  /-- A call that meets a text without an end stops at the end, for good. -/
  unterminated : ∀ offset q m', m.next? = some (.error ⟨offset, .unterminated q⟩, m') →
    m'.pos = source.utf8ByteSize ∧ Ended source m'
  /-- The end is answered with its place, and then for good. -/
  ended : ∀ t m', m.next? = some (.ok t, m') → t.kind = .eof →
    t = .endOfFile source.utf8ByteSize ∧ t.start = source.utf8ByteSize ∧
      t.stop = source.utf8ByteSize ∧ Ended source m'

theorem next?_between_ne_none (here : Cursor) : (Lexer.between here).next? ≠ none := by
  rw [Lexer.next?]
  split <;> simp

/-- A call leads inside a character if it meets one of several bytes that it does not know. -/
theorem next?_eq_none_iff {l : Lexer} (h : l.next? = some (a, l')) :
    l'.next? = none ↔ ∃ offset c, a = .error ⟨offset, .unrecognized c⟩ ∧ 2 ≤ c.utf8Size := by
  cases l with
  | inside offset => cases h
  | between here =>
    rw [Lexer.next?] at h
    split at h
    · obtain ⟨rfl, rfl⟩ := Prod.mk.inj (Option.some.inj h)
      exact iff_of_false (next?_between_ne_none _) (by simp)
    · obtain ⟨rfl, rfl⟩ := Prod.mk.inj (Option.some.inj h)
      rename_i e _
      obtain ⟨offset, c | q⟩ := e
      · have hpos := c.utf8Size_pos
        rw [Lexer.behind]
        split
        · refine iff_of_false (next?_between_ne_none _) ?_
          rintro ⟨_, _, ⟨⟩, hc⟩
          omega
        · exact iff_of_true rfl ⟨offset, c, rfl, by omega⟩
      · exact iff_of_false (next?_between_ne_none _) (by simp)

theorem Together.next?_eq_none_iff (h : Together source m l) : m.next? = none ↔ l.next? = none := by
  rcases h.step with ⟨hnone, offset, rfl⟩ | ⟨a, m', l', hm, hl, -⟩
  · exact iff_of_true hnone rfl
  · exact iff_of_false (by simp [hm]) (by simp [hl])

/-- What every run from the front of a source comes to. -/
theorem Together.regular (hsize : source.utf8ByteSize < UInt32.size) (h : Together source m l)
    (hfails : m.next? = none ↔
      ∃ as' offset c, as = as' ++ [.error ⟨offset, .unrecognized c⟩] ∧ 2 ≤ c.utf8Size) :
    Regular source as m where
  pos_le := h.1 ▸ h.2.pos_le
  fails_iff := hfails
  pos_lt := by
    intro a m' hcall ha
    obtain ⟨l', -, -, hmoves⟩ := h.characters hcall
    cases hmoves with
    | eof => exact absurd rfl (ha _ rfl)
    | token _ hlt => exact hlt
    | unrecognized hoffset hpos => omega
    | unterminated hlt => exact hlt
  unrecognized := by
    intro offset c m' hcall
    obtain ⟨l', -, -, _ | _ | ⟨-, hpos⟩ | _⟩ := h.characters hcall
    exact hpos
  unterminated := by
    intro offset q m' hcall
    obtain ⟨l', -, hnext, _ | _ | _ | ⟨-, hpos⟩⟩ := h.characters hcall
    rw [h.1] at hpos
    exact ⟨hpos, hnext.ended hpos⟩
  ended := by
    intro t m' hcall ht
    obtain ⟨l', -, hnext, hmoves⟩ := h.characters hcall
    cases hmoves with
    | eof hpos =>
      rw [h.1] at hpos ⊢
      exact ⟨rfl, Token.start_endOfFile hsize, Token.stop_endOfFile hsize, hnext.ended hpos⟩
    | token hne => exact absurd ht hne

/-- A lexer over the bytes of a source, in every run. -/
structure Sound (source : String) : Prop where
  /-- Any calls one after another. -/
  regular : ∀ as m, Answers next? (ofSource source) as m → Regular source as m
  /-- The lexer over characters answers as this one does, and fails where it fails. -/
  characters : ∀ as m, Answers next? (ofSource source) as m →
    ∃ l, Answers Lexer.next? (.ofSource source) as l ∧ l.offset = m.pos ∧
      (l.next? = none ↔ m.next? = none)
  /-- The calls up to the first error or the end of the source do not fail, and they are what the
  source is read as. -/
  tokenize : ∃ ts a m, Answers next? (ofSource source) (ts.map .ok ++ [a]) m ∧
    (∀ t ∈ ts, t.kind ≠ .eof) ∧
      ((∃ e, a = .error e ∧ tokenize source = .error e) ∨
        ∃ t, a = .ok t ∧ t.kind = .eof ∧ tokenize source = .ok (ts ++ [t]))

theorem At.offset (h : m.At l) : l.offset = m.pos := by
  cases h with
  | between h => exact h.pos.symm
  | inside _ _ hpos => exact hpos.symm

/-- **A lexer may be asked any number of times.**  It fails to answer in one case only, behind a
character of several bytes that it does not know; it never passes the end of the source, and there
it stays. -/
theorem sound_ofSource (hsize : source.utf8ByteSize < UInt32.size) : Sound source := by
  have hstart := together_ofSource source
  have hcharacters : ∀ as m, Answers next? (ofSource source) as m →
      ∃ l, Answers Lexer.next? (.ofSource source) as l ∧ Together source m l := fun as m h ↦
    h.simulate (fun m l a m' hm hcall ↦ (hm.characters hcall).imp fun _ hl ↦ ⟨hl.1, hl.2.1⟩) hstart
  constructor
  case regular =>
    intro as m h
    obtain ⟨l, hl, htogether⟩ := hcharacters as m h
    refine htogether.regular hsize ?_
    rw [htogether.next?_eq_none_iff]
    -- The last call decides whether the lexer stands inside a character.
    rcases List.eq_nil_or_concat as with rfl | ⟨as, a, rfl⟩
    · obtain _ | _ := hl
      exact iff_of_false (next?_between_ne_none _) (by simp)
    · rw [List.concat_eq_append] at hl ⊢
      obtain ⟨l₀, -, hcall⟩ := hl.exists_of_snoc
      rw [next?_eq_none_iff hcall]
      constructor
      · rintro ⟨offset, c, rfl, hc⟩
        exact ⟨as, offset, c, rfl, hc⟩
      · rintro ⟨as', offset, c, has, hc⟩
        obtain ⟨-, hlast⟩ := List.append_inj' has rfl
        exact ⟨offset, c, List.singleton_inj.1 hlast, hc⟩
  case characters =>
    intro as m h
    obtain ⟨l, hl, htogether⟩ := hcharacters as m h
    exact ⟨l, hl, htogether.2.offset, htogether.next?_eq_none_iff.symm⟩
  case tokenize =>
    obtain ⟨ts, there, hanswers, hts, hend⟩ := (Cursor.start source).exists_answers []
    have hbytes : ∀ a l, (Lexer.between there).next? = some (a, l) →
        ∃ m, Answers next? (ofSource source) (ts.map .ok ++ [a]) m := by
      intro a l hcall
      obtain ⟨m, hm, -⟩ := (hanswers.snoc hcall).simulate
        (R := fun l m ↦ Together source m l) (fun l m a l' hl hcall ↦ hl.bytes hcall) hstart
      exact ⟨m, hm⟩
    rcases hend with ⟨e, herror, hout⟩ | ⟨t, after, htoken, heof, hout⟩
    · obtain ⟨m, hm⟩ := hbytes _ _ (Lexer.next?_of_error herror)
      exact ⟨ts, _, m, hm, hts, .inl ⟨e, rfl, hout⟩⟩
    · obtain ⟨m, hm⟩ := hbytes _ _ (Lexer.next?_of_token htoken)
      exact ⟨ts, _, m, hm, hts, .inr ⟨t, rfl, heof, hout⟩⟩

/-- Characters that start no lexeme, and a text without an end. -/
theorem sound_ofSource_unknown : Sound "? é 'ü" := sound_ofSource (by decide +kernel)

/-- The call behind a character of two bytes. -/
example : ((ofSource "é").next?.map fun r ↦ (r.1, r.2.pos, r.2.next?.isNone)) =
    some (.error ⟨0, .unrecognized 'é'⟩, 1, true) := by decide +kernel

end ByteLexer

end SvLang
