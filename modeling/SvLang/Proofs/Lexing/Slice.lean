import Mathlib.Data.String.Basic
import SvLang.Lexeme

/-!
# Bytes of a text

Tokens and errors point into a source by byte offsets, and the source is read character by
character.  An offset is `IsBoundary` if it falls between two characters; `slice` is the text
between two offsets.  Both are read off a decomposition of the characters of the source:
`isBoundary_of_append` and `slice_of_append`.
-/

set_option autoImplicit false

namespace SvLang

/-- The byte offset falls between two characters of the text, or at one of its ends. -/
def IsBoundary (source : String) (offset : Nat) : Prop :=
  String.Pos.Raw.IsValid source ⟨offset⟩

/-- The text from one byte offset up to another one. -/
def slice (source : String) (start stop : Nat) : String :=
  String.Pos.Raw.extract source ⟨start⟩ ⟨stop⟩

theorem byteSize_eq_utf8Len (cs : List Char) : byteSize cs = String.utf8Len cs := by
  induction cs with
  | nil => rfl
  | cons c cs ih => rw [byteSize_cons, String.utf8Len_cons, ih, Nat.add_comm]

theorem byteSize_toList (s : String) : byteSize s.toList = s.utf8ByteSize := by
  rw [byteSize_eq_utf8Len, ← String.utf8ByteSize_ofList, String.ofList_toList]

theorem byteSize_pos {cs : List Char} (h : cs ≠ []) : 0 < byteSize cs := by
  obtain ⟨c, cs, rfl⟩ := List.exists_cons_of_ne_nil h
  rw [byteSize_cons]
  exact Nat.add_pos_left c.utf8Size_pos _

theorem byteSize_eq_zero {cs : List Char} (h : byteSize cs = 0) : cs = [] := by
  by_contra hne
  exact absurd h (Nat.ne_of_gt (byteSize_pos hne))

theorem byteSize_le_of_prefix {cs ds : List Char} (h : cs <+: ds) : byteSize cs ≤ byteSize ds := by
  obtain ⟨rest, rfl⟩ := h
  rw [byteSize_append]
  exact Nat.le_add_right _ _

section Append

variable {source : String} {before text after : List Char}

theorem isBoundary_of_append (h : source.toList = before ++ after) :
    IsBoundary source (byteSize before) := by
  have hsource : source = String.ofList before ++ String.ofList after := by
    rw [← String.ofList_append, ← h, String.ofList_toList]
  refine String.Pos.Raw.isValid_iff_exists_append.2 ⟨_, _, hsource, ?_⟩
  rw [String.rawEndPos_ofList, byteSize_eq_utf8Len]

theorem exists_append_of_isBoundary {offset : Nat} (h : IsBoundary source offset) :
    ∃ before after, source.toList = before ++ after ∧ byteSize before = offset := by
  obtain ⟨s, t, rfl, hs⟩ := String.Pos.Raw.isValid_iff_exists_append.1 h
  refine ⟨s.toList, t.toList, String.toList_append, ?_⟩
  rw [byteSize_toList]
  exact (congrArg String.Pos.Raw.byteIdx hs).symm

/-- There is no boundary inside a character. -/
theorem not_isBoundary_of_append {c : Char} {n : Nat} (h : source.toList = before ++ c :: after)
    (hpos : 0 < n) (hlt : n < c.utf8Size) : ¬ IsBoundary source (byteSize before + n) := by
  intro hn
  obtain ⟨front, back, hsource, hsize⟩ := exists_append_of_isBoundary hn
  rw [h] at hsource
  rcases List.append_eq_append_iff.1 hsource with ⟨extra, rfl, hextra⟩ | ⟨extra, rfl, -⟩
  · rw [byteSize_append] at hsize
    rcases extra with _ | ⟨d, extra⟩
    · rw [byteSize_nil] at hsize
      omega
    · obtain ⟨rfl, -⟩ := List.cons.inj hextra
      rw [byteSize_cons] at hsize
      omega
  · rw [byteSize_append] at hsize
    omega

theorem slice_of_append (h : source.toList = before ++ (text ++ after)) :
    slice source (byteSize before) (byteSize before + byteSize text) = String.ofList text := by
  have hsource : String.ofList (before ++ text ++ after) = source := by
    rw [List.append_assoc, ← h, String.ofList_toList]
  rw [slice, ← hsource, byteSize_eq_utf8Len, byteSize_eq_utf8Len, String.extract_of_valid]

/-- The text up to a later boundary is the front of what follows. -/
theorem exists_slice_of_isBoundary {stop : Nat} (h : source.toList = before ++ after)
    (hstop : IsBoundary source stop) (hle : byteSize before ≤ stop) :
    ∃ text, text <+: after ∧ byteSize before + byteSize text = stop ∧
      slice source (byteSize before) stop = String.ofList text := by
  obtain ⟨front, back, hsource, rfl⟩ := exists_append_of_isBoundary hstop
  rw [h] at hsource
  rcases List.append_eq_append_iff.1 hsource with ⟨text, rfl, rfl⟩ | ⟨extra, rfl, rfl⟩
  · rw [byteSize_append]
    exact ⟨text, List.prefix_append .., rfl, slice_of_append h⟩
  · rw [byteSize_append] at hle
    have hextra : extra = [] := byteSize_eq_zero (by omega)
    subst hextra
    rw [List.append_nil] at h ⊢
    have hempty : slice source (byteSize front) (byteSize front + byteSize []) = String.ofList [] :=
      slice_of_append h
    exact ⟨[], List.nil_prefix, rfl, hempty⟩

end Append

end SvLang
