import SvLang.Proofs.Numeric.Text
import SvLang.Proofs.Java.Literal

/-!
# The lines of a Java text

The text of a class is taken apart again: into its lines, and a line into its parts.

## What is here

* `lines`: the lines of a text.  `lines_mainClass` gives those of an emitted class: the header, one
  line for each declaration, and the footer.
* `lineText`: what the line of a declaration is made of.  It determines its parts
  (`lineText_inj`), as long as names are words.
* `Value.eq_variable_of_render`: a value that is written as a word is a variable.
-/

set_option autoImplicit false

namespace SvLang.Java

open Lexeme

/-! ## The text of values -/

namespace Value

/-- The variables that a value refers to. -/
def names : Value → List String
  | .variable name => [name]
  | operation left _ right => left.names ++ right.names
  | int _ | double _ | string _ => []

theorem isNumberText_int (n : Int) : IsNumberText (Value.int n).render.toList := by
  have hdigits : ∀ k : Nat, IsNumberText (Nat.toDigits 10 k) := by
    intro k
    have hdigit : ∀ c ∈ Nat.toDigits 10 k, c.isDigit := fun c ↦
      Nat.isDigit_of_mem_toDigits (by decide) (by decide)
    refine ⟨fun c hc ↦ isNumberPart_of_isDigit (hdigit c hc), .inl ?_⟩
    obtain ⟨d, ds, hd⟩ := List.exists_cons_of_ne_nil (Nat.toDigits_ne_nil (n := k) (b := 10))
    rw [hd] at hdigit ⊢
    exact ⟨d, rfl, Lexeme.not_isWordStart_of_isDigit (hdigit d List.mem_cons_self)⟩
  cases n with
  | ofNat k =>
    have htext : (Value.int (Int.ofNat k)).render.toList = Nat.toDigits 10 k := Nat.toList_repr
    rw [htext]
    exact hdigits k
  | negSucc k =>
    have htext : (Value.int (Int.negSucc k)).render.toList = '-' :: Nat.toDigits 10 (k + 1) := by
      rw [← Nat.toList_repr]
      exact String.toList_append
    rw [htext]
    exact Layout.isNumberText_minus (hdigits (k + 1))

theorem newline_not_mem_quoted (s : String) : '\n' ∉ (quoted s).toList := by
  have hbody : '\n' ∉ s.toList.flatMap escaped := fun h ↦
    not_isLineEnd_of_mem_flatMap h (by decide)
  rw [quoted, String.toList_ofList, quotedChars]
  simp [hbody]

theorem not_mem_of_isNumberText {cs : List Char} (h : IsNumberText cs) {c : Char}
    (hc : ¬ isNumberPart c) : c ∉ cs :=
  fun hmem ↦ hc (h.1 c hmem)

/-- A value is written on one line. -/
theorem newline_not_mem_render {v : Value} (h : ∀ x ∈ v.names, IsWord x) :
    '\n' ∉ v.render.toList := by
  have hgrouped : ∀ {w : Value} {text : String}, '\n' ∉ text.toList →
      '\n' ∉ (w.grouped text).toList := by
    intro w text htext
    cases w <;> simp [grouped, htext]
  induction v with
  | int n => exact not_mem_of_isNumberText (isNumberText_int n) (by decide)
  | double x => exact not_mem_of_isNumberText (isNumberText_write x) (by decide)
  | string content => exact newline_not_mem_quoted content
  | «variable» name => exact not_mem_of_isWord (h name List.mem_cons_self) (by decide)
  | operation left op right ihl ihr =>
    rw [names, List.forall_mem_append] at h
    have hop : '\n' ∉ (BinaryOp.arithmetic op).spelling.toList := by cases op <;> decide
    simp [render, hgrouped (ihl h.1), hgrouped (ihr h.2), hop]

/-- A value that is written as a word is a variable. -/
theorem eq_variable_of_render {v : Value} (h : IsWord v.render) : v = .variable v.render := by
  cases v with
  | int n => exact absurd h (isNumberText_int n).not_wellFormed_word
  | double x => exact absurd h (isNumberText_write x).not_wellFormed_word
  | string content =>
    obtain ⟨c, cs, hcs, hc, -⟩ := h
    rw [render, quoted, String.toList_ofList, quotedChars] at hcs
    cases hcs
    exact absurd hc (by decide)
  | «variable» name => rfl
  | operation left op right =>
    have hspace : ' ' ∉ (operation left op right).render.toList := not_mem_of_isWord h (by decide)
    simp [render] at hspace

end Value

/-! ## The text of a declaration -/

/-- The text of a declaration of `x`, without the indentation. -/
def lineText (type : VariableType) (x : String) (tail : List Char) : List Char :=
  type.spelling.toList ++ ' ' :: (x.toList ++ tail)

/-- What follows the name in a declaration that sets it to a value. -/
def settingTail (value : String) : List Char := ' ' :: '=' :: ' ' :: (value.toList ++ [';'])

/-- What follows the name in a declaration. -/
def Declaration.tail (d : Declaration) : List Char :=
  match d.value? with
  | none => [';']
  | some v => settingTail v.render

theorem Declaration.toList_render (d : Declaration) :
    d.render.toList = lineText d.type d.name d.tail := by
  obtain ⟨type, x, value?⟩ := d
  cases value? with
  | none =>
    have htext : render ⟨type, x, none⟩ = type.spelling ++ " " ++ x ++ ";" := rfl
    simp [htext, lineText, tail]
  | some v =>
    have htext : render ⟨type, x, some v⟩ =
      type.spelling ++ " " ++ x ++ " = " ++ v.render ++ ";" := rfl
    simp [htext, lineText, tail, settingTail]

/-- A run of word characters and what follows it can be told apart. -/
theorem append_run_inj {as bs rest rest' : List Char} (has : ∀ c ∈ as, isWordPart c)
    (hbs : ∀ c ∈ bs, isWordPart c) (hrest : ∀ c ∈ rest.head?, ¬ isWordPart c)
    (hrest' : ∀ c ∈ rest'.head?, ¬ isWordPart c) (h : as ++ rest = bs ++ rest') :
    as = bs ∧ rest = rest' := by
  have htake := congrArg (List.takeWhile isWordPart) h
  have hdrop := congrArg (List.dropWhile isWordPart) h
  rw [takeWhile_append_run has hrest, takeWhile_append_run hbs hrest'] at htake
  rw [dropWhile_append_run has hrest, dropWhile_append_run hbs hrest'] at hdrop
  exact ⟨htake, hdrop⟩

theorem isWordPart_spelling (type : VariableType) : ∀ c ∈ type.spelling.toList, isWordPart c := by
  cases type <;> exact List.all_eq_true.1 (by decide)

/-- The text of a declaration determines its type, its name and what follows. -/
theorem lineText_inj {type type' : VariableType} {x x' : String} {tail tail' : List Char}
    (hx : IsWord x) (hx' : IsWord x') (htail : ∀ c ∈ tail.head?, ¬ isWordPart c)
    (htail' : ∀ c ∈ tail'.head?, ¬ isWordPart c)
    (h : lineText type x tail = lineText type' x' tail') :
    type = type' ∧ x = x' ∧ tail = tail' := by
  have hspace : ∀ cs : List Char, ∀ c ∈ (' ' :: cs).head?, ¬ isWordPart c := by
    rintro cs c ⟨⟩
    decide
  obtain ⟨htype, hrest⟩ := append_run_inj (isWordPart_spelling type) (isWordPart_spelling type')
    (hspace _) (hspace _) h
  obtain ⟨hname, htails⟩ := append_run_inj (fun c ↦ isWordPart_of_mem hx)
    (fun c ↦ isWordPart_of_mem hx') htail htail' (List.cons.inj hrest).2
  refine ⟨?_, String.toList_inj.1 hname, htails⟩
  cases type <;> cases type' <;> first | rfl | exact absurd htype (by decide)

theorem Declaration.head?_tail (d : Declaration) : ∀ c ∈ d.tail.head?, ¬ isWordPart c := by
  rw [tail]
  split
  · rintro c ⟨⟩
    decide
  · rintro c ⟨⟩
    decide

/-- The name of a declaration and the variables of its value are words. -/
def Declaration.Named (d : Declaration) : Prop :=
  IsWord d.name ∧ ∀ v, d.value? = some v → ∀ x ∈ v.names, IsWord x

/-- A declaration is written on one line. -/
theorem Declaration.newline_not_mem_render {d : Declaration} (h : d.Named) :
    '\n' ∉ d.render.toList := by
  have htype : '\n' ∉ d.type.spelling.toList := fun hmem ↦
    absurd (isWordPart_spelling _ _ hmem) (by decide)
  have hname : '\n' ∉ d.name.toList := not_mem_of_isWord h.1 (by decide)
  have htail : '\n' ∉ d.tail := by
    rw [tail]
    split
    · decide
    · rename_i v hv
      simp [settingTail, Value.newline_not_mem_render (h.2 v hv)]
  rw [toList_render, lineText]
  simp [htype, hname, htail]

/-! ## The lines of a class -/

/-- The lines of a text.  A text that ends in a line feed has an empty line behind it. -/
def lines (java : String) : List String := (java.toList.splitOn '\n').map String.ofList

/-- The lines above the declarations. -/
def headerLines : List String :=
  ["public class Main \x7b", "    public static void main(String[] args) \x7b"]

/-- The lines below the declarations. -/
def footerLines : List String := ["    \x7d", "\x7d", ""]

/-- The line of a declaration without its line feed. -/
def indented (text : String) : String := "        " ++ text

theorem indented_inj {text text' : String} (h : indented text = indented text') : text = text' := by
  have hchars := congrArg String.toList h
  rw [indented, indented, String.toList_append, String.toList_append] at hchars
  exact String.toList_inj.1 (List.append_cancel_left hchars)

theorem lines_cons {line : String} (h : '\n' ∉ line.toList) (rest : String) :
    lines (line ++ "\n" ++ rest) = line :: lines rest := by
  have htext : (line ++ "\n" ++ rest).toList = line.toList ++ '\n' :: rest.toList := by simp
  rw [lines, htext, List.splitOn_append_cons_self_of_not_mem h, List.map_cons,
    String.ofList_toList]
  rfl

/-- **The lines of an emitted class**: the header, the declarations one by one, and the footer. -/
theorem lines_mainClass {ds : List Declaration} (hds : ∀ d ∈ ds, d.Named) :
    lines (mainClass ds) = headerLines ++ (ds.map fun d ↦ indented d.render) ++ footerLines := by
  have hbody : lines (String.join (ds.map Declaration.line) ++ footer) =
      (ds.map fun d ↦ indented d.render) ++ footerLines := by
    induction ds with
    | nil =>
      rw [List.map_nil, String.join_nil, String.empty_append]
      decide
    | cons d ds ih =>
      rw [List.forall_mem_cons] at hds
      have hline : '\n' ∉ (indented d.render).toList := by
        have hrender := Declaration.newline_not_mem_render hds.1
        simp [indented, hrender]
      rw [List.map_cons, String.join_cons, Declaration.line, String.append_assoc, ← indented,
        lines_cons hline, ih hds.2]
      rfl
  have hfirst : '\n' ∉ "public class Main \x7b".toList := by decide
  have hsecond : '\n' ∉ "    public static void main(String[] args) \x7b".toList := by decide
  have hheader : header = "public class Main \x7b" ++ "\n" ++
      ("    public static void main(String[] args) \x7b" ++ "\n") := by decide
  rw [mainClass, hheader, String.append_assoc, String.append_assoc, lines_cons hfirst,
    lines_cons hsecond, hbody]
  rfl

/-- No line of the header or the footer is indented as far as a declaration. -/
theorem indented_not_mem (text : String) : indented text ∉ headerLines ++ footerLines := by
  have htake : (indented text).toList.take 8 = "        ".toList := by
    rw [indented, String.toList_append]
    exact List.take_left' rfl
  intro hmem
  have hall : ∀ line ∈ headerLines ++ footerLines, line.toList.take 8 ≠ "        ".toList := by
    decide
  exact hall _ hmem htake

/-- The indented lines of an emitted class are its declarations, from the third line on. -/
theorem getElem?_lines_mainClass {ds : List Declaration} (hds : ∀ d ∈ ds, d.Named) {i : Nat}
    {text : String} :
    (lines (mainClass ds))[i]? = some (indented text) ↔
      ∃ k d, i = k + 2 ∧ ds[k]? = some d ∧ d.render = text := by
  have hlength : headerLines.length = 2 := rfl
  rw [lines_mainClass hds, List.append_assoc, List.getElem?_append, hlength]
  split
  · rename_i hlt
    constructor
    · intro h
      have hmem := List.mem_append_left footerLines (List.mem_of_getElem? h)
      exact absurd hmem (indented_not_mem text)
    · rintro ⟨k, d, rfl, -⟩
      omega
  · rename_i hge
    rw [List.getElem?_append, List.length_map]
    split
    · rename_i hlt
      rw [List.getElem?_map, Option.map_eq_some_iff]
      constructor
      · rintro ⟨d, hd, htext⟩
        exact ⟨i - 2, d, by omega, hd, indented_inj htext⟩
      · rintro ⟨k, d, rfl, hd, rfl⟩
        exact ⟨d, hd, rfl⟩
    · rename_i hlt
      constructor
      · intro h
        have hmem := List.mem_append_right headerLines (List.mem_of_getElem? h)
        exact absurd hmem (indented_not_mem text)
      · rintro ⟨k, d, rfl, hd, -⟩
        have hk := (List.getElem?_eq_some_iff.1 hd).1
        omega

end SvLang.Java
