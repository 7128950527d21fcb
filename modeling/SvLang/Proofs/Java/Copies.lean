import SvLang.Proofs.Java.Names

/-!
# Variables that are set to other variables

A declaration that sets a variable to another one is emitted as a line `int x = y;`, whatever `y` is
and whether or not it is declared at all.  So the Java text need not fit together
(`not_copiesDeclared`).  The main statement is `copy_line_iff`: it says from which declarations such
a line comes, and exactly when `y` is declared above it with the type `int` that the line asks for.
-/

set_option autoImplicit false

namespace SvLang

/-! ## Analyzed declarations -/

/-- Whether a folded initializer makes its variable an `int`: a whole number of 32 bits does, and
so does a name. -/
def Expr.isIntInitializer : Expr → Bool
  | .number .numeric x => (Binary64.int32? x).isSome
  | .identifier _ => true
  | _ => false

/-- The statement declares the variable `y` with an initializer that makes it an `int`. -/
def Stmt.DeclaresInt (y : String) : Stmt → Prop
  | .variable id _ (some e) => id.name = y ∧ e.isIntInitializer
  | _ => False

/-- The statement sets the variable `x` to the variable `y`. -/
def Stmt.Copies (x y : String) : Stmt → Prop
  | .variable id _ (some (.identifier source)) => id.name = x ∧ source.name = y
  | _ => False

namespace Java

open Lexeme

theorem Value.eq_identifier_of_ofExpr? {e : Expr} {y : String}
    (h : ofExpr? e = some (.variable y)) : ∃ id : Identifier, e = .identifier id ∧ id.name = y := by
  rw [ofExpr?.eq_def] at h
  split at h
  · split at h <;> cases h
  · cases h
  · cases h
  · rename_i id
    cases h
    exact ⟨id, rfl, rfl⟩
  · split at h <;> cases h
  · cases h

/-- An initializer that makes its variable an `int` has a value of that type. -/
theorem Value.exists_of_isIntInitializer {e : Expr} (h : e.isIntInitializer) :
    ∃ v, ofExpr? e = some v ∧ v.type = .int := by
  rw [Expr.isIntInitializer.eq_def] at h
  split at h
  · rename_i x
    obtain ⟨n, hn⟩ := Option.isSome_iff_exists.1 h
    exact ⟨.int n, by rw [ofExpr?, hn], rfl⟩
  · exact ⟨_, rfl, rfl⟩
  · cases h

/-- Without arithmetic, there is no other initializer whose value has that type. -/
theorem Value.isIntInitializer_of_type {e : Expr} {v : Value} (h : ofExpr? e = some v)
    (htype : v.type = .int) (he : ∀ l op r, e ≠ .binary l (.arithmetic op) r) :
    e.isIntInitializer := by
  rw [ofExpr?.eq_def] at h
  split at h
  · split at h
    · rename_i n hn
      rw [Expr.isIntInitializer, hn]
      rfl
    · cases h
      cases htype
  · cases h
    cases htype
  · cases h
    cases htype
  · rfl
  · exact absurd rfl (he _ _ _)
  · cases h

/-! ## Lines -/

/-- The line that sets `x` to a value. -/
def settingLine (type : VariableType) (x value : String) : String :=
  indented (type.spelling ++ " " ++ x ++ " = " ++ value ++ ";")

/-- The line declares `x` with this type, whether it sets it or not. -/
def Declares (line : String) (type : VariableType) (x : String) : Prop :=
  line = indented (type.spelling ++ " " ++ x ++ ";") ∨ ∃ value, line = settingLine type x value

/-- A line of the text above the `i`-th one declares `x` with this type. -/
def DeclaredAbove (java : String) (i : Nat) (type : VariableType) (x : String) : Prop :=
  ∃ j < i, ∃ line, (lines java)[j]? = some line ∧ Declares line type x

/-- Every line that sets a variable to another one stands below a line that declares the other one
with the same type. -/
def CopiesDeclared (java : String) : Prop :=
  ∀ i type x y, IsWord x → IsWord y → (lines java)[i]? = some (settingLine type x y) →
    DeclaredAbove java i type y

/-- The text of this class does not fit together: its fourth line sets an `int` to a variable that
the line above declares as a `String`. -/
theorem not_copiesDeclared :
    compileSource "sv s = \"x\"; sv t = s;" = .ok
        ("public class Main \x7b\n    public static void main(String[] args) \x7b\n" ++
          "        String s = \"x\";\n        int t = s;\n    \x7d\n\x7d\n") ∧
      ¬ CopiesDeclared
        ("public class Main \x7b\n    public static void main(String[] args) \x7b\n" ++
          "        String s = \"x\";\n        int t = s;\n    \x7d\n\x7d\n") := by
  refine ⟨eq_ok_of_toOption (by decide +kernel), fun h ↦ ?_⟩
  have hlines : lines
      ("public class Main \x7b\n    public static void main(String[] args) \x7b\n" ++
        "        String s = \"x\";\n        int t = s;\n    \x7d\n\x7d\n") =
      ["public class Main \x7b", "    public static void main(String[] args) \x7b",
        "        String s = \"x\";", "        int t = s;", "    \x7d", "\x7d", ""] := by
    decide +kernel
  have ht : IsWord "t" := ⟨'t', [], rfl, by decide, by simp⟩
  have hs : IsWord "s" := ⟨'s', [], rfl, by decide, by simp⟩
  obtain ⟨j, hj, line, hline, hdeclares⟩ := h 3 .int "t" "s" ht hs (by rw [hlines]; decide)
  -- What declares an `int` starts otherwise than the three lines above.
  have hprefix : line.toList.take 12 = "        int ".toList := by
    rcases hdeclares with rfl | ⟨value, rfl⟩
    · decide
    · simp [settingLine, indented, VariableType.spelling]
  have hmem : line ∈ ["public class Main \x7b",
      "    public static void main(String[] args) \x7b", "        String s = \"x\";"] := by
    rw [hlines] at hline
    obtain rfl | rfl | rfl : j = 0 ∨ j = 1 ∨ j = 2 := by omega
    all_goals cases hline; simp
  have hall : ∀ line ∈ ["public class Main \x7b",
      "    public static void main(String[] args) \x7b", "        String s = \"x\";"],
      line.toList.take 12 ≠ "        int ".toList := by
    decide
  exact hall line hmem hprefix

theorem Declares.exists_indented {line : String} {type : VariableType} {x : String}
    (h : Declares line type x) : ∃ text, line = indented text := by
  rcases h with rfl | ⟨value, rfl⟩
  · exact ⟨_, rfl⟩
  · exact ⟨_, rfl⟩

/-- The text of a declaration that sets `x` to the variable `y`. -/
theorem Declaration.eq_of_render_copy {d : Declaration} {type : VariableType} {x y : String}
    (hd : d.Named) (hx : IsWord x) (hy : IsWord y)
    (h : d.render = type.spelling ++ " " ++ x ++ " = " ++ y ++ ";") :
    d = ⟨type, x, some (.variable y)⟩ := by
  have htext : lineText d.type d.name d.tail = lineText type x (settingTail y) := by
    rw [← d.toList_render, h]
    simp [lineText, settingTail]
  have hsetting : ∀ c ∈ (settingTail y).head?, ¬ isWordPart c := by
    rintro c ⟨⟩
    decide
  obtain ⟨htype, hname, htail⟩ := lineText_inj hd.1 hx d.head?_tail hsetting htext
  obtain ⟨type', x', value?⟩ := d
  cases value? with
  | none => cases htail
  | some v =>
    have hrender : v.render = y := by
      simp only [tail, settingTail, List.cons.injEq, true_and] at htail
      exact String.toList_inj.1 (List.append_cancel_right htail)
    rw [← hrender] at hy
    rw [← hrender, ← Value.eq_variable_of_render hy]
    cases htype
    cases hname
    rfl

/-- A line that declares `x` comes from a declaration of `x` with that type. -/
theorem Declaration.of_declares {d : Declaration} {type : VariableType} {x : String}
    (hd : d.Named) (hx : IsWord x) (h : Declares (indented d.render) type x) :
    d.type = type ∧ d.name = x := by
  have hparts : ∀ tail, (∀ c ∈ List.head? tail, ¬ isWordPart c) →
      d.render.toList = lineText type x tail → d.type = type ∧ d.name = x := by
    intro tail htail htext
    rw [d.toList_render] at htext
    obtain ⟨htype, hname, -⟩ := lineText_inj hd.1 hx d.head?_tail htail htext
    exact ⟨htype, hname⟩
  rcases h with h | ⟨value, h⟩
  · refine hparts [';'] (by rintro c ⟨⟩; decide) ?_
    rw [indented_inj h]
    simp [lineText]
  · refine hparts (settingTail value) (by rintro c ⟨⟩; decide) ?_
    rw [indented_inj h]
    simp [lineText, settingTail]

/-! ## Declarations and where they come from -/

/-- The `k`-th element that a list is filtered to comes from a place in the list, and `k` others
come from the elements in front of it. -/
theorem exists_split_of_filterMap {α β : Type} {f : α → Option β} {as : List α} {k : Nat} {b : β}
    (h : (as.filterMap f)[k]? = some b) :
    ∃ before a after, as = before ++ a :: after ∧ f a = some b ∧
      (before.filterMap f).length = k := by
  induction as generalizing k with
  | nil => cases h
  | cons a as ih =>
    rw [List.filterMap_cons] at h
    cases ha : f a with
    | none =>
      rw [ha] at h
      obtain ⟨before, a', after, rfl, ha', hk⟩ := ih h
      refine ⟨a :: before, a', after, rfl, ha', ?_⟩
      rw [List.filterMap_cons, ha]
      exact hk
    | some b' =>
      rw [ha] at h
      cases k with
      | zero =>
        cases h
        exact ⟨[], a, as, rfl, ha, rfl⟩
      | succ k =>
        obtain ⟨before, a', after, rfl, ha', hk⟩ := ih h
        refine ⟨a :: before, a', after, rfl, ha', ?_⟩
        rw [List.filterMap_cons, ha, List.length_cons, hk]

/-- A declaration that sets `x` to the variable `y` comes from a statement that does. -/
theorem Declaration.copies_of_ofStmt? {s : Stmt} {type : VariableType} {x y : String}
    (h : ofStmt? s = some ⟨type, x, some (.variable y)⟩) : type = .int ∧ s.Copies x y := by
  rw [ofStmt?.eq_def] at h
  split at h
  · cases h
  · obtain ⟨v, hv, hd⟩ := Option.map_eq_some_iff.1 h
    cases hd
    obtain ⟨source, rfl, hsource⟩ := Value.eq_identifier_of_ofExpr? hv
    exact ⟨rfl, rfl, hsource⟩
  · cases h

/-- A declaration of an `int` comes from a statement that declares one, if the statement has been
analyzed. -/
theorem Declaration.declaresInt_of_ofStmt? {s : Stmt} {t : SymbolTable} {d : Declaration}
    (herror : (s.analyze t).error? = none) (h : ofStmt? (s.analyze t).value = some d)
    (htype : d.type = .int) : (s.analyze t).value.DeclaresInt d.name := by
  rw [ofStmt?.eq_def] at h
  split at h
  · rename_i hvalue
    obtain ⟨e, he, -⟩ := Stmt.initializer_of_analyze herror hvalue
    cases he
  · rename_i id type? e hvalue
    obtain ⟨v, hv, rfl⟩ := Option.map_eq_some_iff.1 h
    obtain ⟨_, ⟨⟩, he⟩ := Stmt.initializer_of_analyze herror hvalue
    rw [hvalue]
    exact ⟨rfl, Value.isIntInitializer_of_type hv htype he⟩
  · cases h

/-- A statement that declares an `int` has a declaration of that type. -/
theorem Declaration.exists_of_declaresInt {s : Stmt} {y : String} (h : s.DeclaresInt y) :
    ∃ v : Value, ofStmt? s = some ⟨.int, y, some v⟩ := by
  rw [Stmt.DeclaresInt.eq_def] at h
  split at h
  · obtain ⟨rfl, he⟩ := h
    obtain ⟨v, hv, htype⟩ := Value.exists_of_isIntInitializer he
    exact ⟨v, by rw [ofStmt?, hv, Option.map_some, htype]⟩
  · cases h

/-! ## Copies -/

/-- **Lines that set a variable to another one.**  Each such line of an emitted text has the type
`int`, and it comes from a declaration that sets the one variable to the other.  Above it the other
one is declared with the same type if and only if a statement in front of the declaration does so:
a declaration of a variable whose folded initializer is a whole number of 32 bits or a name. -/
theorem copy_line_iff {source java : String} (h : compileSource source = .ok java) :
    ∃ a, analyzeSource source = .ok a ∧ ∀ i type x y, IsWord x → IsWord y →
      (lines java)[i]? = some (settingLine type x y) →
        type = .int ∧ ∃ before s after, a.program.body = before ++ s :: after ∧ s.Copies x y ∧
          (DeclaredAbove java i type y ↔ ∃ s ∈ before, s.DeclaresInt y) := by
  obtain ⟨a, ha, rfl⟩ := compileSource_eq_ok_iff.1 h
  refine ⟨a, ha, ?_⟩
  intro i type x y hx hy hline
  have hnamed : ∀ d ∈ declarations a.program, d.Named := by
    intro d hd
    obtain ⟨s, hs, hsd⟩ := List.mem_filterMap.1 hd
    exact (named_of_analyzeSource ha s hs).declaration hsd
  -- The line comes from the `k`-th declaration, and that from a statement.
  obtain ⟨k, d, rfl, hk, hrender⟩ := (getElem?_lines_mainClass hnamed).1 hline
  obtain rfl := Declaration.eq_of_render_copy (hnamed d (List.mem_of_getElem? hk)) hx hy hrender
  obtain ⟨before, s, after, hbody, hs, hlength⟩ := exists_split_of_filterMap hk
  obtain ⟨rfl, hcopies⟩ := Declaration.copies_of_ofStmt? hs
  refine ⟨rfl, before, s, after, hbody, hcopies, ?_⟩
  -- The declarations above it are those of the statements in front.
  have habove : ∀ j < k, (declarations a.program)[j]? =
      (before.filterMap Declaration.ofStmt?)[j]? := by
    intro j hj
    rw [declarations, hbody, List.filterMap_append]
    exact List.getElem?_append_left (by omega)
  constructor
  · rintro ⟨j, hj, line, hjline, hdeclares⟩
    obtain ⟨text, rfl⟩ := hdeclares.exists_indented
    obtain ⟨m, d, rfl, hm, rfl⟩ := (getElem?_lines_mainClass hnamed).1 hjline
    have hd := hnamed d (List.mem_of_getElem? hm)
    obtain ⟨htype, rfl⟩ := d.of_declares hd hy hdeclares
    rw [habove m (by omega)] at hm
    obtain ⟨s', hs', hsd⟩ := List.mem_filterMap.1 (List.mem_of_getElem? hm)
    have hmem : s' ∈ a.program.body := by
      rw [hbody]
      exact List.mem_append_left _ hs'
    obtain ⟨r, t, herror, rfl⟩ := exists_analyze_of_mem ha hmem
    exact ⟨_, hs', Declaration.declaresInt_of_ofStmt? herror hsd htype⟩
  · rintro ⟨s', hs', hdeclares⟩
    obtain ⟨v, hv⟩ := Declaration.exists_of_declaresInt hdeclares
    obtain ⟨j, hj⟩ := List.mem_iff_getElem?.1 (List.mem_filterMap.2 ⟨s', hs', hv⟩)
    have hlt := (List.getElem?_eq_some_iff.1 hj).1
    rw [hlength] at hlt
    rw [← habove j hlt] at hj
    refine ⟨j + 2, by omega, settingLine .int y v.render, ?_, .inr ⟨_, rfl⟩⟩
    exact (getElem?_lines_mainClass hnamed).2 ⟨j, _, rfl, hj, rfl⟩

/-- A copy of a whole number. -/
theorem copy_line_iff_whole :
    ∃ java, compileSource "sv a = 1; sv b = a;" = .ok java ∧
      (lines java)[3]? = some (settingLine .int "b" "a") ∧
      ∃ a, analyzeSource "sv a = 1; sv b = a;" = .ok a ∧
        ∃ before s after, a.program.body = before ++ s :: after ∧ s.Copies "b" "a" ∧
          (DeclaredAbove java 3 .int "a" ↔ ∃ s ∈ before, s.DeclaresInt "a") := by
  have hcompile : compileSource "sv a = 1; sv b = a;" = .ok
      (mainClass [⟨.int, "a", some (.int 1)⟩, ⟨.int, "b", some (.variable "a")⟩]) :=
    eq_ok_of_toOption (by decide +kernel)
  have hline : (lines (mainClass [⟨.int, "a", some (.int 1)⟩,
      ⟨.int, "b", some (.variable "a")⟩]))[3]? = some (settingLine .int "b" "a") := by
    decide +kernel
  have ha : IsWord "a" := ⟨'a', [], rfl, by decide, by simp⟩
  have hb : IsWord "b" := ⟨'b', [], rfl, by decide, by simp⟩
  obtain ⟨a, hanalyze, hlines⟩ := copy_line_iff hcompile
  obtain ⟨-, hcopy⟩ := hlines 3 .int "b" "a" hb ha hline
  exact ⟨_, hcompile, hline, a, hanalyze, hcopy⟩

end Java

end SvLang
