import SvLang.Proofs.Lexing.Scan
import SvLang.Proofs.Lexing.Slice

/-!
# Characters as their bytes

A text that is read byte by byte shows the bytes of its UTF-8 form.  Here each byte stands for the
character with its number, so that the same classes of characters can be asked about bytes.  That
gives what the text would give read by whole characters, as long as a question does not tell one
character outside ASCII from another one (`Bytewise`): every byte of such a character is outside
ASCII too (`le_of_mem_bytesOf`), and every other character is its only byte (`bytesOf_of_lt`).
-/

set_option autoImplicit false

namespace SvLang

/-- The bytes of a character in UTF-8, each as the character with its number. -/
def bytesOf (c : Char) : List Char := (String.utf8EncodeChar c).map Char.ofUInt8

/-- The bytes of a run of characters. -/
def bytesOfAll (cs : List Char) : List Char := cs.flatMap bytesOf

theorem toNat_ofUInt8 (b : UInt8) : (Char.ofUInt8 b).toNat = b.toNat := UInt8.toNat_toUInt32 b

@[simp] theorem length_bytesOf (c : Char) : (bytesOf c).length = c.utf8Size := by
  rw [bytesOf, List.length_map, String.length_utf8EncodeChar]

theorem bytesOf_ne_nil (c : Char) : bytesOf c ≠ [] := by
  rw [← List.length_pos_iff, length_bytesOf]
  exact c.utf8Size_pos

/-- A character of ASCII is its only byte. -/
theorem bytesOf_of_lt {c : Char} (h : c.toNat < 128) : bytesOf c = [c] := by
  have hle : c.val.toNat ≤ 127 := Nat.le_of_lt_succ h
  have hbyte : Char.ofUInt8 (UInt8.ofNat c.val.toNat) = c := by
    refine Char.toNat_inj.1 ?_
    rw [toNat_ofUInt8, UInt8.toNat_ofNat_of_lt' (Nat.lt_of_le_of_lt hle (by decide))]
    rfl
  rw [bytesOf, String.utf8EncodeChar]
  simp only [if_pos hle, List.map_cons, List.map_nil, hbyte]

theorem utf8Size_of_lt {c : Char} (h : c.toNat < 128) : c.utf8Size = 1 := by
  rw [← length_bytesOf, bytesOf_of_lt h, List.length_singleton]

/-- A byte with a mark in its highest bit. -/
theorem le_toNat_marked {m mark : Nat} (hm : 0 < m) (hmark : 128 ≤ mark) (hfits : m + mark ≤ 256)
    (n : Nat) : 128 ≤ (UInt8.ofNat (n % m + mark)).toNat := by
  have hlt := Nat.mod_lt n hm
  rw [UInt8.toNat_ofNat_of_lt' (show n % m + mark < 256 by omega)]
  omega

/-- The bytes of any other character are not in ASCII. -/
theorem le_of_mem_bytesOf {c d : Char} (h : 128 ≤ c.toNat) (hd : d ∈ bytesOf c) :
    128 ≤ d.toNat := by
  obtain ⟨b, hb, rfl⟩ := List.mem_map.1 hd
  have hlarge : ¬ c.val.toNat ≤ 127 := Nat.not_le.2 h
  rw [String.utf8EncodeChar] at hb
  simp only [if_neg hlarge] at hb
  rw [toNat_ofUInt8]
  split at hb
  · simp only [List.mem_cons, List.not_mem_nil, or_false] at hb
    rcases hb with rfl | rfl <;> exact le_toNat_marked (by decide) (by decide) (by decide) _
  split at hb
  · simp only [List.mem_cons, List.not_mem_nil, or_false] at hb
    rcases hb with rfl | rfl | rfl <;> exact le_toNat_marked (by decide) (by decide) (by decide) _
  · simp only [List.mem_cons, List.not_mem_nil, or_false] at hb
    rcases hb with rfl | rfl | rfl | rfl <;>
      exact le_toNat_marked (by decide) (by decide) (by decide) _

/-! ## What the language is written with

All that the lexer looks for is in ASCII. -/

theorem toNat_lt_of_isWordPart {c : Char} (h : isWordPart c) : c.toNat < 128 := by
  have hletter : c.isAlpha = (decide ('A'.val ≤ c.val ∧ c.val ≤ 'Z'.val) ||
      (decide ('a'.val ≤ c.val) && decide (c.val ≤ 'z'.val))) := rfl
  simp only [isWordPart, Char.isAlphanum, hletter, Char.isDigit, Bool.or_eq_true, Bool.and_eq_true,
    decide_eq_true_iff, UInt32.le_iff_toNat_le] at h
  rcases h with ((h | h) | h) | rfl
  · exact Nat.lt_of_le_of_lt h.2 (by decide)
  · exact Nat.lt_of_le_of_lt h.2 (by decide)
  · exact Nat.lt_of_le_of_lt h.2 (by decide)
  · decide

theorem toNat_lt_of_isBlank {c : Char} (h : isBlank c) : c.toNat < 128 := by
  simp only [isBlank, Bool.or_eq_true, decide_eq_true_iff] at h
  rcases h with ((rfl | rfl) | rfl) | rfl <;> decide

theorem toNat_mark_lt (q : Quote) : q.mark.toNat < 128 := by cases q <;> decide

theorem toNat_lt_of_mem_spelling {s : Symbol} {c : Char} (h : c ∈ s.spelling) : c.toNat < 128 := by
  have hall : s.spelling.all (fun c ↦ decide (c.toNat < 128)) = true := by cases s <;> decide
  exact of_decide_eq_true (List.all_eq_true.1 hall c h)

/-! ## Questions that bytes answer as characters do -/

/-- The answer for a character is the answer for each of its bytes. -/
def Bytewise {α : Type} (f : Char → α) : Prop := ∀ c, ∀ d ∈ bytesOf c, f d = f c

namespace Bytewise

/-- Only characters of ASCII have an answer of their own. -/
theorem of_ascii {α : Type} {f : Char → α} (a : α) (h : ∀ c, f c ≠ a → c.toNat < 128) :
    Bytewise f := by
  intro c d hd
  by_cases hc : c.toNat < 128
  · rw [bytesOf_of_lt hc, List.mem_singleton] at hd
    rw [hd]
  · have hlarge : ∀ d, 128 ≤ d.toNat → f d = a := fun d hd ↦
      not_not.1 fun hne ↦ Nat.not_le.2 (h d hne) hd
    rw [Nat.not_lt] at hc
    rw [hlarge c hc, hlarge d (le_of_mem_bytesOf hc hd)]

/-- Whether a character is another one of ASCII. -/
theorem bne {m : Char} (hm : m.toNat < 128) : Bytewise (· != m) := by
  refine of_ascii true fun c hc ↦ ?_
  obtain rfl : c = m := by simpa using hc
  exact hm

theorem isDigit : Bytewise Char.isDigit :=
  of_ascii false fun _ hc ↦
    toNat_lt_of_isWordPart (Lexeme.isWordPart_of_isDigit (Bool.eq_true_of_not_eq_false hc))

theorem isWordPart : Bytewise isWordPart :=
  of_ascii false fun _ hc ↦ toNat_lt_of_isWordPart (Bool.eq_true_of_not_eq_false hc)

theorem isBlank : Bytewise isBlank :=
  of_ascii false fun _ hc ↦ toNat_lt_of_isBlank (Bool.eq_true_of_not_eq_false hc)

/-- Whether a character goes on a symbol that starts with a given one. -/
theorem ofPair? (c : Char) : Bytewise (Symbol.ofPair? c) := by
  refine of_ascii none fun d hd ↦ ?_
  obtain ⟨s, hs⟩ := Option.ne_none_iff_exists'.1 hd
  refine toNat_lt_of_mem_spelling (s := s) ?_
  rw [Symbol.spelling_ofPair? hs]
  exact List.mem_cons_of_mem _ List.mem_cons_self

end Bytewise

/-! ## Runs of bytes -/

@[simp] theorem bytesOfAll_nil : bytesOfAll [] = [] := rfl

@[simp] theorem bytesOfAll_cons (c : Char) (cs : List Char) :
    bytesOfAll (c :: cs) = bytesOf c ++ bytesOfAll cs := rfl

theorem bytesOfAll_append (cs ds : List Char) :
    bytesOfAll (cs ++ ds) = bytesOfAll cs ++ bytesOfAll ds := List.flatMap_append

@[simp] theorem length_bytesOfAll (cs : List Char) : (bytesOfAll cs).length = byteSize cs := by
  induction cs with
  | nil => rfl
  | cons c cs ih => rw [bytesOfAll_cons, List.length_append, length_bytesOf, ih, byteSize_cons]

theorem bytesOfAll_toList (source : String) :
    source.toUTF8.data.toList.map Char.ofUInt8 = bytesOfAll source.toList := by
  rw [String.toUTF8_eq_toByteArray, ← String.utf8Encode_toList, List.utf8Encode,
    List.toList_data_toByteArray, List.map_flatMap]
  rfl

theorem bytesOfAll_cons_of_lt {c : Char} (h : c.toNat < 128) (cs : List Char) :
    bytesOfAll (c :: cs) = c :: bytesOfAll cs := by
  rw [bytesOfAll_cons, bytesOf_of_lt h, List.singleton_append]

/-- The first byte is one of the first character. -/
theorem exists_of_bytesOfAll_eq_cons {d : Char} {cs ds : List Char} (h : bytesOfAll cs = d :: ds) :
    ∃ c cs', cs = c :: cs' ∧ d ∈ bytesOf c := by
  rcases cs with _ | ⟨c, cs⟩
  · simp at h
  refine ⟨c, cs, rfl, ?_⟩
  obtain ⟨e, es, hes⟩ := List.exists_cons_of_ne_nil (bytesOf_ne_nil c)
  rw [bytesOfAll_cons, hes] at h
  rw [hes, (List.cons.inj h).1]
  exact List.mem_cons_self

/-- A first byte of ASCII is the first character. -/
theorem exists_of_bytesOfAll_eq_ascii {d : Char} {cs ds : List Char} (h : bytesOfAll cs = d :: ds)
    (hd : d.toNat < 128) : ∃ cs', cs = d :: cs' ∧ ds = bytesOfAll cs' := by
  obtain ⟨c, cs, rfl, hmem⟩ := exists_of_bytesOfAll_eq_cons h
  have hc : c.toNat < 128 := by
    by_contra hlarge
    exact Nat.not_le.2 hd (le_of_mem_bytesOf (Nat.not_lt.1 hlarge) hmem)
  rw [bytesOfAll_cons_of_lt hc] at h
  obtain ⟨rfl, rfl⟩ := List.cons.inj h
  exact ⟨cs, rfl, rfl⟩

/-- The first byte answers for the first character. -/
theorem head?_bytesOfAll_bind {α : Type} {f : Char → Option α} (hf : Bytewise f) (cs : List Char) :
    (bytesOfAll cs).head?.bind f = cs.head?.bind f := by
  cases cs with
  | nil => rfl
  | cons c cs =>
    obtain ⟨d, ds, hds⟩ := List.exists_cons_of_ne_nil (bytesOf_ne_nil c)
    rw [bytesOfAll_cons, hds]
    exact hf c d (hds ▸ List.mem_cons_self)

section Runs

variable {p : Char → Bool}

/-- All bytes of a character are of a class, or the first one is not. -/
theorem takeWhile_bytesOfAll (hp : Bytewise p) (cs : List Char) :
    (bytesOfAll cs).takeWhile p = bytesOfAll (cs.takeWhile p) := by
  induction cs with
  | nil => rfl
  | cons c cs ih =>
    by_cases hc : p c
    · have hbytes : ∀ d ∈ bytesOf c, p d := fun d hd ↦ (hp c d hd).trans hc
      rw [bytesOfAll_cons, List.takeWhile_append_of_pos hbytes, ih, List.takeWhile_cons_of_pos hc,
        bytesOfAll_cons]
    · obtain ⟨d, ds, hds⟩ := List.exists_cons_of_ne_nil (bytesOf_ne_nil c)
      have hd : ¬ p d := by
        rw [hp c d (hds ▸ List.mem_cons_self)]
        exact hc
      rw [bytesOfAll_cons, hds, List.cons_append, List.takeWhile_cons_of_neg hd,
        List.takeWhile_cons_of_neg hc, bytesOfAll_nil]

end Runs

end SvLang
