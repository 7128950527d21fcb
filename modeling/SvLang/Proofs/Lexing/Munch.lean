import SvLang.Proofs.Lexing.Scan

/-!
# The longest lexeme is read

`Lexical kind cs` says that the characters `cs` write a token of this kind; it is the lexical
grammar of the language, and it says nothing about how a text is read.  What is read is always the
longest lexeme of the grammar that there is (`length_le_of_scan_prefix`), and so it ends where the
characters that follow do not make it longer (`endsBefore_of_scan`).
-/

set_option autoImplicit false

namespace SvLang

/-! ## The lexical grammar -/

open Lexeme in
/-- The characters write a token of this kind. -/
inductive Lexical : TokenKind → List Char → Prop where
  | symbol (s : Symbol) : Lexical (.symbol s) s.spelling
  | whole {digits : List Char} (h : IsDigits digits) : Lexical (.number .numeric) digits
  /-- A number with a fraction. -/
  | float {digits fraction : List Char} (hd : IsDigits digits) (hf : IsDigits fraction)
      (h : byteSize (digits ++ '.' :: fraction) < 32) :
      Lexical (.number .float) (digits ++ '.' :: fraction)
  /-- A number with a fraction that takes many bytes. -/
  | double {digits fraction : List Char} (hd : IsDigits digits) (hf : IsDigits fraction)
      (h : 32 ≤ byteSize (digits ++ '.' :: fraction)) :
      Lexical (.number .double) (digits ++ '.' :: fraction)
  | typeName (t : TypeName) : Lexical (.typeName t) t.spelling.toList
  | keyword (k : Keyword) : Lexical (.keyword k) k.spelling.toList
  /-- Any other word. -/
  | identifier {x : String} (hx : IsWord x) (ht : ∀ t : TypeName, t.spelling ≠ x)
      (hk : ∀ k : Keyword, k.spelling ≠ x) : Lexical .identifier x.toList
  | text (q : Quote) {content : List Char} (h : q.mark ∉ content) :
      Lexical (.text q) (q.mark :: (content ++ [q.mark]))

namespace TokenKind

theorem ofWord_spelling_typeName (t : TypeName) : ofWord t.spelling = .typeName t := by
  cases t <;> decide

theorem ofWord_spelling_keyword (k : Keyword) : ofWord k.spelling = .keyword k := by
  cases k <;> decide

/-- A word is that of a type, a keyword, or none of them and a name. -/
theorem ofWord_cases (x : String) :
    (∃ t : TypeName, t.spelling = x ∧ ofWord x = .typeName t) ∨
      (∃ k : Keyword, k.spelling = x ∧ ofWord x = .keyword k) ∨
        (∀ t : TypeName, t.spelling ≠ x) ∧ (∀ k : Keyword, k.spelling ≠ x) ∧
          ofWord x = .identifier := by
  by_cases ht : ∃ t : TypeName, t.spelling = x
  · obtain ⟨t, rfl⟩ := ht
    exact .inl ⟨t, rfl, ofWord_spelling_typeName t⟩
  by_cases hk : ∃ k : Keyword, k.spelling = x
  · obtain ⟨k, rfl⟩ := hk
    exact .inr (.inl ⟨k, rfl, ofWord_spelling_keyword k⟩)
  rw [not_exists] at ht hk
  have htype : TypeName.ofWord? x = none := by simp [TypeName.ofWord?, ht]
  have hkeyword : Keyword.ofWord? x = none := by simp [Keyword.ofWord?, hk]
  exact .inr (.inr ⟨ht, hk, by rw [ofWord, htype]; simp only [hkeyword]⟩)

end TokenKind

namespace Lexeme

/-- Digits are bytes. -/
theorem byteSize_of_isDigit {cs : List Char} (h : ∀ c ∈ cs, c.isDigit) :
    byteSize cs = cs.length := by
  induction cs with
  | nil => rfl
  | cons c cs ih =>
    rw [List.forall_mem_cons] at h
    have hc : c.utf8Size = 1 := by
      have hdigit := h.1
      simp only [Char.isDigit, Bool.and_eq_true, decide_eq_true_iff, UInt32.le_iff_toNat_le]
        at hdigit
      rw [Char.utf8Size, if_pos]
      rw [UInt32.le_iff_toNat_le]
      simp at hdigit ⊢
      omega
    rw [byteSize_cons, ih h.2, hc, List.length_cons, Nat.add_comm]

theorem byteSize_decimal {digits fraction : List Char} (hd : IsDigits digits)
    (hf : IsDigits fraction) :
    byteSize (digits ++ '.' :: fraction) = digits.length + 1 + fraction.length := by
  rw [byteSize_append, byteSize_cons, byteSize_of_isDigit hd.2, byteSize_of_isDigit hf.2]
  have hpoint : '.'.utf8Size = 1 := rfl
  omega

theorem isWord_typeName (t : TypeName) : IsWord t.spelling := by
  cases t <;> exact ⟨_, _, rfl, by decide, List.all_eq_true.1 rfl⟩

theorem isWord_keyword (k : Keyword) : IsWord k.spelling := by
  cases k <;> exact ⟨_, _, rfl, by decide, List.all_eq_true.1 rfl⟩

/-- The lexical grammar has the lexemes that can be written. -/
theorem lexical_iff {kind : TokenKind} {cs : List Char} :
    Lexical kind cs ↔ ∃ l : Lexeme, l.WellFormed ∧ l.spelling = cs ∧ l.kind = kind := by
  constructor
  · rintro (s | hdigits | ⟨hd, hf, h⟩ | ⟨hd, hf, h⟩ | t | k | ⟨hx, ht, hk⟩ | ⟨q, h⟩)
    · exact ⟨.symbol s, trivial, rfl, rfl⟩
    · exact ⟨.whole _, hdigits, rfl, rfl⟩
    · rw [byteSize_decimal hd hf] at h
      exact ⟨.decimal _ _, ⟨hd, hf⟩, rfl, by rw [kind, doubleLength, if_pos h]⟩
    · rw [byteSize_decimal hd hf] at h
      exact ⟨.decimal _ _, ⟨hd, hf⟩, rfl, by rw [kind, doubleLength, if_neg (Nat.not_lt.2 h)]⟩
    · refine ⟨.word _, isWord_typeName t, rfl, ?_⟩
      rw [kind, String.ofList_toList, TokenKind.ofWord_spelling_typeName]
    · refine ⟨.word _, isWord_keyword k, rfl, ?_⟩
      rw [kind, String.ofList_toList, TokenKind.ofWord_spelling_keyword]
    · refine ⟨.word _, hx, rfl, ?_⟩
      rename_i x
      rw [kind, String.ofList_toList]
      rcases TokenKind.ofWord_cases x with ⟨t, hxt, -⟩ | ⟨k, hxk, -⟩ | ⟨-, -, h⟩
      · exact absurd hxt (ht t)
      · exact absurd hxk (hk k)
      · exact h
    · exact ⟨.quoted q _, h, rfl, rfl⟩
  · rintro ⟨l, hl, rfl, rfl⟩
    cases l with
    | symbol s => exact .symbol s
    | whole digits => exact .whole hl
    | decimal digits fraction =>
      have hsize := byteSize_decimal hl.1 hl.2
      rw [kind, doubleLength, ← hsize]
      split
      · exact .float hl.1 hl.2 (by assumption)
      · exact .double hl.1 hl.2 (by omega)
    | word letters =>
      obtain ⟨x, rfl⟩ : ∃ x : String, x.toList = letters := ⟨_, String.toList_ofList⟩
      rw [kind, String.ofList_toList]
      rcases TokenKind.ofWord_cases x with ⟨t, rfl, h⟩ | ⟨k, rfl, h⟩ | ⟨ht, hk, h⟩
      · exact h ▸ .typeName t
      · exact h ▸ .keyword k
      · exact h ▸ .identifier hl ht hk
    | quoted q content => exact .text q hl

theorem endsBefore_nil (l : Lexeme) : l.EndsBefore [] := by
  cases l <;> simp [EndsBefore]

/-- A spelling is that of one lexeme only. -/
theorem WellFormed.eq_of_spelling_eq {l l' : Lexeme} (hl : l.WellFormed) (hl' : l'.WellFormed)
    (h : l.spelling = l'.spelling) : l = l' := by
  obtain ⟨c, cs, hcs, hscan⟩ := scan_spelling hl l.endsBefore_nil
  obtain ⟨c', cs', hcs', hscan'⟩ := scan_spelling hl' l'.endsBefore_nil
  rw [h, hcs'] at hcs
  obtain ⟨rfl, rfl⟩ := List.cons.inj hcs
  rw [hscan] at hscan'
  exact congrArg Prod.fst (Except.ok.inj hscan')

/-- So the characters of a lexeme write a token of one kind only. -/
theorem WellFormed.lexical_spelling_iff {l : Lexeme} (hl : l.WellFormed) {kind : TokenKind} :
    Lexical kind l.spelling ↔ kind = l.kind := by
  rw [lexical_iff]
  constructor
  · rintro ⟨l', hl', hspelling, rfl⟩
    rw [hl'.eq_of_spelling_eq hl hspelling]
  · rintro rfl
    exact ⟨l, hl, rfl, rfl⟩

/-- Only a quoted text has the kind of one. -/
theorem exists_of_kind_eq_text {l : Lexeme} {q : Quote} (h : l.kind = .text q) :
    ∃ content, l = quoted q content := by
  cases l with
  | quoted q content =>
    cases h
    exact ⟨content, rfl⟩
  | word letters =>
    rw [kind] at h
    rcases TokenKind.ofWord_cases (String.ofList letters) with
      ⟨t, -, hword⟩ | ⟨k, -, hword⟩ | ⟨-, -, hword⟩ <;> rw [hword] at h <;> cases h
  | symbol | whole | decimal => cases h

/-! ## Nothing longer could be read -/

theorem length_le_takeWhile {p : Char → Bool} {as : List Char} (has : ∀ a ∈ as, p a)
    (rest : List Char) : as.length ≤ ((as ++ rest).takeWhile p).length := by
  rw [List.takeWhile_append_of_pos has, List.length_append]
  exact Nat.le_add_right _ _

/-- All digits at the front belong to the number that is read. -/
theorem length_whole_le {digits : List Char} (hd : IsDigits digits) (rest : List Char) :
    digits.length ≤ (leadingNumber (digits ++ rest)).1.spelling.length := by
  refine Nat.le_trans (length_le_takeWhile hd.2 rest) ?_
  rw [leadingNumber]
  split
  · split <;> simp [spelling]
  · exact Nat.le_refl _

/-- So do a point and the digits behind it. -/
theorem length_decimal_le {digits fraction : List Char} (hd : IsDigits digits)
    (hf : IsDigits fraction) (rest : List Char) :
    (digits ++ '.' :: fraction).length ≤
      (leadingNumber (digits ++ ('.' :: fraction ++ rest))).1.spelling.length := by
  rcases fraction with _ | ⟨f, fs⟩
  · exact absurd rfl hf.1
  have hfs := List.forall_mem_cons.1 hf.2
  have hle := length_le_takeWhile hfs.2 rest
  rw [List.cons_append, List.cons_append, leadingNumber_point hd hfs.1]
  simp only [spelling, List.length_append, List.length_cons]
  omega

/-- What starts with digits is read as a number. -/
theorem leadingNumber_of_scan {c : Char} {cs rest digits tail : List Char} {l : Lexeme}
    (h : scan c cs = .ok (l, rest)) (hd : IsDigits digits) (hcs : digits ++ tail = c :: cs) :
    leadingNumber (digits ++ tail) = (l, rest) := by
  rcases digits with _ | ⟨d, ds⟩
  · exact absurd rfl hd.1
  obtain ⟨rfl, rfl⟩ := List.cons.inj hcs
  rw [scan_of_isDigit (hd.2 _ List.mem_cons_self)] at h
  exact Except.ok.inj h

/-- **The longest lexeme is read.**  No lexeme at the front of some characters is longer than the
one that is read there. -/
theorem length_le_of_scan_prefix {c : Char} {cs rest : List Char} {l l' : Lexeme}
    (h : scan c cs = .ok (l, rest)) (hl' : l'.WellFormed) (hfront : l'.spelling <+: c :: cs) :
    l'.spelling.length ≤ l.spelling.length := by
  obtain ⟨rest', hrest'⟩ := hfront
  cases l' with
  | symbol s =>
    rcases s.spelling_cases with ⟨d, hs, -⟩ | ⟨d, d', hs, hpair⟩
    · rw [spelling, hs]
      exact List.length_pos_iff.2 (spelling_ne_nil_of_scan h)
    · rw [spelling, hs, List.cons_append, List.singleton_append] at hrest'
      obtain ⟨rfl, rfl⟩ := List.cons.inj hrest'
      have hsymbol : leadingSymbol? d (d' :: rest') = some (s, rest') := by
        rw [leadingSymbol?, hpair]
      rw [scan, hsymbol] at h
      cases h
      exact Nat.le_refl _
  | whole digits =>
    have hle := length_whole_le hl' rest'
    rw [leadingNumber_of_scan h hl' hrest'] at hle
    exact hle
  | decimal digits fraction =>
    have hle := length_decimal_le hl'.1 hl'.2 rest'
    rw [spelling, List.append_assoc] at hrest'
    rw [leadingNumber_of_scan h hl'.1 hrest'] at hle
    exact hle
  | word letters =>
    obtain ⟨w, ws, rfl, hw, hws⟩ := hl'
    rw [spelling, List.cons_append] at hrest'
    obtain ⟨rfl, rfl⟩ := List.cons.inj hrest'
    rw [scan_of_isWordStart hw] at h
    cases h
    exact Nat.succ_le_succ (length_le_takeWhile hws rest')
  | quoted q content =>
    rw [spelling, List.cons_append, List.append_assoc, List.singleton_append] at hrest'
    obtain ⟨rfl, rfl⟩ := List.cons.inj hrest'
    rw [scan_mark, leadingText_quoted hl'] at h
    cases h
    exact Nat.le_refl _

/-! ## What follows does not make it longer -/

theorem head?_dropWhile_not {p : Char → Bool} (cs : List Char) :
    ∀ d ∈ (cs.dropWhile p).head?, ¬ p d := by
  intro d hd
  have h := List.head?_dropWhile_not p cs
  rw [hd] at h
  simpa using h

theorem endsBefore_leadingNumber {cs rest : List Char} {l : Lexeme}
    (h : leadingNumber cs = (l, rest)) : l.EndsBefore rest := by
  rw [leadingNumber] at h
  split at h
  · rename_i d tail heq
    split at h
    · cases h
      exact head?_dropWhile_not tail
    · rename_i hd
      cases h
      refine ⟨by rintro c ⟨⟩; decide, ?_⟩
      rintro c cs ⟨⟩
      exact hd
  · rename_i hpoint
    cases h
    refine ⟨head?_dropWhile_not cs, ?_⟩
    intro d tail htail
    exact absurd htail (hpoint d tail)

theorem endsBefore_leadingSymbol? {c : Char} {cs rest : List Char} {s : Symbol}
    (h : leadingSymbol? c cs = some (s, rest)) (hcomment : ¬ (c = '/' ∧ cs.head? = some '/')) :
    (symbol s).EndsBefore rest := by
  rw [leadingSymbol?.eq_def] at h
  split at h
  · obtain ⟨s, -, h⟩ := Option.map_eq_some_iff.1 h
    cases h
    exact ⟨by simp, by simp⟩
  · rename_i d cs
    split at h
    · rename_i hs
      cases h
      have hspelling := Symbol.spelling_ofPair? hs
      refine ⟨fun c' hc' ↦ ?_, ?_⟩
      · rw [hspelling] at hc'
        cases hc'
      · rintro rfl
        cases hspelling
    · rename_i hpair
      obtain ⟨s, hs, h⟩ := Option.map_eq_some_iff.1 h
      cases h
      have hspelling := Symbol.spelling_ofChar? hs
      refine ⟨fun c' hc' d' hd' ↦ ?_, ?_⟩
      · rw [hspelling] at hc'
        cases hc'
        cases hd'
        exact hpair
      · rintro rfl hd
        cases hspelling
        exact hcomment ⟨rfl, hd⟩

/-- A lexeme that is read ends where the text goes on, unless it is a slash that starts a
comment. -/
theorem endsBefore_of_scan {c : Char} {cs rest : List Char} {l : Lexeme}
    (h : scan c cs = .ok (l, rest)) (hcomment : ¬ (c = '/' ∧ cs.head? = some '/')) :
    l.EndsBefore rest := by
  rw [scan] at h
  split at h
  · rename_i hs
    cases h
    exact endsBefore_leadingSymbol? hs hcomment
  · split at h
    · rw [leadingText] at h
      split at h
      · cases h
        trivial
      · cases h
    · split at h
      · exact endsBefore_leadingNumber (Except.ok.inj h)
      · split at h
        · cases h
          exact head?_dropWhile_not cs
        · cases h

end Lexeme

end SvLang
