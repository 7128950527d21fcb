import SvLang.Text.Quoted
import Mathlib.Tactic.IntervalCases

/-!
# Quoted texts are read back

A text between double quotes is a run of escapes, and a quote that is not part of one ends it.  The
reader here takes such a run apart from left to right.  It does not know which characters show by
themselves: a character that was written as itself and one that was written by its code come out
the same.  So it reads back what is written with any choice of characters (`escapedWith`), of which
`Text.isPrintable` is one (`escaped_eq_escapedWith`).

## What is here

* `shortEscape?` and `unescape?`: the characters with an escape of their own, in both directions.
* `escapedWith shows`: how a character is written if `shows` says which ones show by themselves.
* `readQuoted?`: the reader.  Its main property is `readQuoted?_flatMap_append`.
* `IsControl`: no control character is left in a quoted text, if none is shown.
-/

set_option autoImplicit false

namespace SvLang.Text

/-! ## Escapes -/

/-- What stands behind the backslash for a character that has an escape of its own. -/
def shortEscape? : Char → Option Char
  | '\x00' => some '0'
  | '\t' => some 't'
  | '\n' => some 'n'
  | '\r' => some 'r'
  | '\\' => some '\\'
  | '\x22' => some '\x22'
  | _ => none

/-- What a character stands for behind a backslash. -/
def unescape? : Char → Option Char
  | '0' => some '\x00'
  | 't' => some '\t'
  | 'n' => some '\n'
  | 'r' => some '\r'
  | '\\' => some '\\'
  | '\x22' => some '\x22'
  | _ => none

/-- How a character is written by its code. -/
def codeEscape (c : Char) : List Char :=
  '\\' :: 'u' :: '\x7b' :: (Nat.toDigits 16 c.toNat ++ ['\x7d'])

/-- How a character is written between double quotes, if `shows` says which of the characters
without an escape of their own are written as themselves. -/
def escapedWith (shows : Char → Bool) (c : Char) : List Char :=
  match shortEscape? c with
  | some d => ['\\', d]
  | none => if shows c then [c] else codeEscape c

/-- A text between double quotes. -/
def quotedWith (shows : Char → Bool) (s : String) : String :=
  String.ofList ('\x22' :: (s.toList.flatMap (escapedWith shows) ++ ['\x22']))

theorem unescape?_of_shortEscape? {c d : Char} (h : shortEscape? c = some d) :
    unescape? d = some c := by
  revert h
  fun_cases shortEscape? c <;> rintro ⟨⟩ <;> rfl

theorem ne_of_shortEscape?_eq_none {c : Char} (h : shortEscape? c = none) :
    c ≠ '\\' ∧ c ≠ '\x22' := by
  constructor
  · rintro rfl
    simp [shortEscape?] at h
  · rintro rfl
    simp [shortEscape?] at h

/-- Listings show the printable characters as themselves. -/
theorem escaped_eq_escapedWith (c : Char) : escaped '\x22' c = escapedWith isPrintable c := by
  rw [escaped, escapedWith]
  fun_cases shortEscape? c <;> simp_all [codeEscape]

theorem quoted_eq_quotedWith (s : String) : quoted s = quotedWith isPrintable s := by
  rw [quoted, quotedWith, quotedBy, funext escaped_eq_escapedWith]

/-! ## Reading a run of escapes -/

/-- The value of a hexadecimal digit. -/
def hexValue (c : Char) : Nat := if c.isDigit then c.toNat - 48 else c.toNat - 87

/-- The character with a code, if there is one. -/
def ofCode? (n : Nat) : Option Char :=
  if (Char.ofNat n).toNat = n then some (Char.ofNat n) else none

/-- Where the reader stands. -/
inductive Place where
  /-- Between two escapes. -/
  | text
  /-- Behind a backslash. -/
  | escape
  /-- In front of the brace that opens a code. -/
  | opening
  /-- Inside a code, behind digits of this value. -/
  | code (n : Nat)

/-- The characters up to the quote that ends a run of escapes, and what is written behind it. -/
def readQuoted? : Place → List Char → Option (List Char × List Char)
  | _, [] => none
  | .text, c :: cs =>
    if c = '\x22' then some ([], cs)
    else if c = '\\' then readQuoted? .escape cs
    else (readQuoted? .text cs).map fun (body, rest) ↦ (c :: body, rest)
  | .escape, c :: cs =>
    if c = 'u' then readQuoted? .opening cs
    else (unescape? c).bind fun d ↦
      (readQuoted? .text cs).map fun (body, rest) ↦ (d :: body, rest)
  | .opening, c :: cs => if c = '\x7b' then readQuoted? (.code 0) cs else none
  | .code n, c :: cs =>
    if c = '\x7d' then (ofCode? n).bind fun d ↦
      (readQuoted? .text cs).map fun (body, rest) ↦ (d :: body, rest)
    else readQuoted? (.code (16 * n + hexValue c)) cs

theorem hexValue_digitChar {d : Nat} (h : d < 16) :
    hexValue d.digitChar = d ∧ d.digitChar ≠ '\x7d' := by
  interval_cases d <;> decide

/-- The digits of a number are read to its value, whatever follows. -/
theorem readQuoted?_toDigits_append (n : Nat) (cs : List Char) :
    readQuoted? (.code 0) (Nat.toDigits 16 n ++ cs) = readQuoted? (.code n) cs := by
  induction n using Nat.strongRecOn generalizing cs with
  | ind n ih =>
    have hdigit : ∀ k, readQuoted? (.code k) ((n % 16).digitChar :: cs) =
        readQuoted? (.code (16 * k + n % 16)) cs := by
      intro k
      obtain ⟨hvalue, hne⟩ := hexValue_digitChar (Nat.mod_lt n (by decide : 0 < 16))
      rw [readQuoted?, if_neg hne, hvalue]
    by_cases hn : n < 16
    · rw [Nat.toDigits_of_lt_base hn, List.singleton_append]
      have hzero := hdigit 0
      rw [Nat.mod_eq_of_lt hn, Nat.mul_zero, Nat.zero_add] at hzero
      exact hzero
    · rw [Nat.toDigits_of_base_le (by decide) (Nat.le_of_not_lt hn), List.append_assoc,
        ih (n / 16) (by omega), List.singleton_append, hdigit, Nat.div_add_mod]

theorem ofCode?_toNat (c : Char) : ofCode? c.toNat = some c := by
  rw [ofCode?, Char.ofNat_toNat, if_pos rfl]

/-- What is written for a character is read as the character, and the run goes on behind it. -/
theorem readQuoted?_escapedWith_append (shows : Char → Bool) (c : Char) (cs : List Char) :
    readQuoted? .text (escapedWith shows c ++ cs) =
      (readQuoted? .text cs).map fun (body, rest) ↦ (c :: body, rest) := by
  rw [escapedWith]
  split
  · rename_i d hd
    have hunescape := unescape?_of_shortEscape? hd
    have hcode : d ≠ 'u' := by
      rintro rfl
      simp [unescape?] at hunescape
    show readQuoted? .escape (d :: cs) = _
    rw [readQuoted?, if_neg hcode, hunescape, Option.bind_some]
  · rename_i hshort
    obtain ⟨hslash, hquote⟩ := ne_of_shortEscape?_eq_none hshort
    split
    · rw [List.singleton_append, readQuoted?, if_neg hquote, if_neg hslash]
    · show readQuoted? (.code 0) ((Nat.toDigits 16 c.toNat ++ ['\x7d']) ++ cs) = _
      rw [List.append_assoc, readQuoted?_toDigits_append, List.singleton_append, readQuoted?,
        if_pos rfl, ofCode?_toNat, Option.bind_some]

/-- A text between quotes is read back, and what follows it is left. -/
theorem readQuoted?_flatMap_append (shows : Char → Bool) (cs rest : List Char) :
    readQuoted? .text (cs.flatMap (escapedWith shows) ++ '\x22' :: rest) = some (cs, rest) := by
  induction cs with
  | nil => rfl
  | cons c cs ih =>
    rw [List.flatMap_cons, List.append_assoc, readQuoted?_escapedWith_append, ih]
    rfl

/-! ## Control characters -/

/-- The control characters: the first 32 codes, and those from 127 to 159. -/
def IsControl (c : Char) : Prop := c.toNat < 32 ∨ 127 ≤ c.toNat ∧ c.toNat < 160

instance (c : Char) : Decidable (IsControl c) := inferInstanceAs (Decidable (_ ∨ _))

/-- No control character shows by itself. -/
theorem isPrintable_of_isControl {c : Char} (h : IsControl c) : isPrintable c = false :=
  isPrintable_control (h.imp_right fun h ↦ ⟨h.1, Nat.le_of_lt h.2⟩)

theorem not_isControl_of_shortEscape? {c d : Char} (h : shortEscape? c = some d) :
    ¬ IsControl d := by
  revert h
  fun_cases shortEscape? c <;> rintro ⟨⟩ <;> decide

theorem not_isControl_digitChar {d : Nat} (h : d < 16) : ¬ IsControl d.digitChar := by
  interval_cases d <;> decide

theorem not_isControl_of_mem_toDigits {n : Nat} {c : Char} (h : c ∈ Nat.toDigits 16 n) :
    ¬ IsControl c := by
  induction n using Nat.strongRecOn with
  | ind n ih =>
    by_cases hn : n < 16
    · rw [Nat.toDigits_of_lt_base hn, List.mem_singleton] at h
      rw [h]
      exact not_isControl_digitChar hn
    · rw [Nat.toDigits_of_base_le (by decide) (Nat.le_of_not_lt hn), List.mem_append,
        List.mem_singleton] at h
      rcases h with h | rfl
      · exact ih (n / 16) (by omega) h
      · exact not_isControl_digitChar (Nat.mod_lt n (by decide))

section Control

variable {shows : Char → Bool} (hshows : ∀ c, IsControl c → shows c = false)

include hshows

/-- What is written for a character shows by itself. -/
theorem not_isControl_of_mem_escapedWith {c e : Char} (h : e ∈ escapedWith shows c) :
    ¬ IsControl e := by
  rw [escapedWith] at h
  split at h
  · rename_i d hd
    rw [List.mem_cons, List.mem_singleton] at h
    rcases h with rfl | rfl
    · decide
    · exact not_isControl_of_shortEscape? hd
  · split at h
    · rename_i hc
      rw [List.mem_singleton] at h
      rintro he
      rw [h] at he
      rw [hshows c he] at hc
      exact Bool.false_ne_true hc
    · simp only [codeEscape, List.mem_cons, List.mem_append, List.not_mem_nil, or_false] at h
      rcases h with rfl | rfl | rfl | h | rfl
      · decide
      · decide
      · decide
      · exact not_isControl_of_mem_toDigits h
      · decide

theorem not_isControl_of_mem_quotedWith {s : String} {e : Char}
    (h : e ∈ (quotedWith shows s).toList) : ¬ IsControl e := by
  rw [quotedWith, String.toList_ofList, List.mem_cons, List.mem_append, List.mem_flatMap,
    List.mem_singleton] at h
  rcases h with rfl | ⟨c, -, h⟩ | rfl
  · decide
  · exact not_isControl_of_mem_escapedWith hshows h
  · decide

end Control

end SvLang.Text
