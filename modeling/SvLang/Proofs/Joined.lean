import SvLang.Proofs.Grammar.Alike
import SvLang.Proofs.Grammar.Closing
import SvLang.Proofs.Lexing.Lossless
import SvLang.Proofs.Lexing.Printing
import SvLang.Proofs.Source

/-!
# Sources one behind the other

Two sources with a line feed between them are read as the tokens of the first and then those of the
second: the line feed ends the last lexeme of the first source, and a comment too
(`tokenize_append`).  If the last statement of the first source is complete, what is read from both
is the one program and then the other (`parseSource_append`).
-/

set_option autoImplicit false

namespace SvLang

/-! ## Characters -/

/-- With a line feed behind it, what closes a text may stand inside one. -/
theorem ClosingTrivia.lineFeed {w : List Char} (hw : ClosingTrivia w) : Trivia (w ++ ['\n']) := by
  obtain ⟨v, tail, rfl, hv, rfl | ⟨body, rfl, hbody⟩⟩ := hw
  · rw [List.append_nil]
    exact hv.append (.blank rfl .nil)
  · rw [List.append_assoc]
    exact hv.append (.comment hbody .nil)

/-- A lexeme that ends in front of a text ends there too if a break and more follow the text. -/
theorem Lexeme.EndsBefore.append {l : Lexeme} {rest : List Char} (h : l.EndsBefore rest) {c : Char}
    (hc : isBreak c) (cs : List Char) : l.EndsBefore (rest ++ c :: cs) := by
  cases rest with
  | nil => exact l.endsBefore_of_isBreak hc cs
  | cons d rest =>
    cases l with
    | whole digits =>
      refine ⟨h.1, fun e es he ↦ ?_⟩
      cases rest with
      | nil =>
        -- What could make a fraction of a point at the end of the text is the break.
        obtain ⟨rfl, htail⟩ := List.cons.inj he
        obtain ⟨rfl, -⟩ := List.cons.inj htail
        exact ((whole digits).endsBefore_of_isBreak hc cs).1 c rfl
      | cons e' rest =>
        obtain ⟨rfl, htail⟩ := List.cons.inj he
        obtain ⟨rfl, -⟩ := List.cons.inj htail
        exact h.2 e' rest rfl
    | _ => exact h

/-! ## Tokens -/

namespace Writes

variable {offset : Nat} {cs ds v : List Char} {ts us vs : List Token}

/-- Blanks and comments may stand in front of a text. -/
theorem behind (hv : Trivia v) (h : Writes (offset + byteSize v) ds ts) :
    Writes offset (v ++ ds) ts := by
  cases h with
  | @eof _ w hw =>
    rw [Nat.add_assoc, ← byteSize_append]
    exact .eof offset (hv.append_closing hw)
  | @cons _ w rest l ts hw hl hrest hts =>
    rw [Nat.add_assoc offset, ← byteSize_append] at hts ⊢
    rw [← List.append_assoc]
    exact .cons offset (hv.append hw) hl hrest hts

/-- Further back, a text writes the same tokens at other places. -/
theorem moved (h : Writes offset cs ts) (offset' : Nat) :
    ∃ ts', Writes offset' cs ts' ∧
      (ts.map fun t ↦ (t.kind, t.text)) = ts'.map fun t ↦ (t.kind, t.text) := by
  induction h generalizing offset' with
  | eof _ hw => exact ⟨_, .eof offset' hw, rfl⟩
  | cons _ hw hl hrest _ ih =>
    obtain ⟨ts', hts', hmap⟩ := ih _
    exact ⟨_ :: ts', .cons offset' hw hl hrest hts', by rw [List.map_cons, hmap]; rfl⟩

/-- A text and, behind a line feed, another one. -/
theorem append {eof : Token} (h : Writes offset cs (us ++ [eof]))
    (hds : Writes (offset + byteSize cs + 1) ds vs) :
    Writes offset (cs ++ '\n' :: ds) (us ++ vs) := by
  induction us generalizing offset cs with
  | nil =>
    rcases h.cases_cons with ⟨hw, -, -⟩ | ⟨w, l, rest, rfl, hw, hl, hrest, -, hts⟩
    · rw [List.append_cons]
      refine behind hw.lineFeed ?_
      rw [byteSize_append, ← Nat.add_assoc]
      exact hds
    · cases hts
  | cons t us ih =>
    rcases h.cases_cons with ⟨-, -, hnil⟩ | ⟨w, l, rest, rfl, hw, hl, hrest, rfl, hts⟩
    · simp at hnil
    · have hbreak : isBreak '\n' := by decide
      rw [List.append_assoc, List.append_assoc]
      refine .cons offset hw hl (hrest.append hbreak ds) (ih hts ?_)
      rw [byteSize_append, byteSize_append] at hds
      rwa [Nat.add_assoc (offset + byteSize w), Nat.add_assoc offset]

end Writes

/-- The tokens of two sources with a line feed between them. -/
theorem tokenize_append {a b : String} {ts vs : List Token} (ha : tokenize a = .ok ts)
    (hb : tokenize b = .ok vs) :
    ∃ us eof vs', ts = us ++ [eof] ∧ NoEnd us ∧ eof.kind = .eof ∧
      tokenize (a ++ "\n" ++ b) = .ok (us ++ vs') ∧
      (vs.map fun t ↦ (t.kind, t.text)) = vs'.map fun t ↦ (t.kind, t.text) := by
  rw [tokenize_eq_ok_iff] at ha hb
  obtain ⟨us, rfl, hus⟩ := ha.exists_eof
  obtain ⟨vs', hvs', hmap⟩ := hb.moved (0 + byteSize a.toList + 1)
  refine ⟨us, _, vs', rfl, hus, rfl, ?_, hmap⟩
  have htext : (a ++ "\n" ++ b).toList = a.toList ++ '\n' :: b.toList := by simp
  rw [tokenize_eq_ok_iff, htext]
  exact ha.append hvs'

/-! ## Programs -/

/-- **Reading distributes over joining.**  Let two sources be accepted, the first of which has no
token or ends, up to blanks and comments, with a semicolon or a closing brace.  With a line feed
between them they are accepted as one, and what is read are the statements of the first and then
those of the second. -/
theorem parseSource_append {a b : String} {p q : Program} (ha : parseSource a = .ok p)
    (hb : parseSource b = .ok q)
    (hclosed : ∀ ts, tokenize a = .ok ts → EndsClosed ts.dropLast) :
    parseSource (a ++ "\n" ++ b) = .ok ⟨p.body ++ q.body⟩ := by
  obtain ⟨ts, htokens, hp⟩ := parseSource_eq_ok_iff.1 ha
  obtain ⟨vs, hvs, hq⟩ := parseSource_eq_ok_iff.1 hb
  obtain ⟨us, eof, vs', rfl, hus, heof, htokenize, hcontents⟩ := tokenize_append htokens hvs
  have hclosed := hclosed _ htokens
  rw [List.dropLast_concat] at hclosed
  have hq' := parseWithin_eq_ok_of_alike (alike_of_contents hcontents) hq
  exact parseSource_eq_ok_iff.2 ⟨_, htokenize, parseWithin_append hus hclosed heof hp hq'⟩

/-- An `if` that an `else` could follow, with a comment behind it, and an expression that could be
the arguments of a call. -/
theorem parseSource_append_comment :
    ∃ p q, parseSource "if (x) \x7b f \x7d // else" = .ok p ∧ parseSource "(y)" = .ok q ∧
      p.body.length = 1 ∧ q.body.length = 1 ∧
      (∀ ts, tokenize "if (x) \x7b f \x7d // else" = .ok ts → EndsClosed ts.dropLast) ∧
      parseSource ("if (x) \x7b f \x7d // else" ++ "\n" ++ "(y)") = .ok ⟨p.body ++ q.body⟩ := by
  have hp : (parseSource "if (x) \x7b f \x7d // else").toOption.map (·.body.length) = some 1 := by
    decide +kernel
  have hq : (parseSource "(y)").toOption.map (·.body.length) = some 1 := by decide +kernel
  obtain ⟨p, hp, hplength⟩ := Option.map_eq_some_iff.1 hp
  obtain ⟨q, hq, hqlength⟩ := Option.map_eq_some_iff.1 hq
  have hclosed : ∀ ts, tokenize "if (x) \x7b f \x7d // else" = .ok ts → EndsClosed ts.dropLast := by
    intro ts hts t ht
    have hlast : (tokenize "if (x) \x7b f \x7d // else").toOption.map
        (fun ts ↦ ts.dropLast.getLast?.map Token.kind) = some (some (.symbol .closeBrace)) := by
      decide +kernel
    have hkind : t.kind = .symbol .closeBrace := by
      simpa [hts, Except.toOption, Option.mem_def.1 ht] using hlast
    rw [hkind]
    rfl
  exact ⟨p, q, eq_ok_of_toOption hp, eq_ok_of_toOption hq, hplength, hqlength, hclosed,
    parseSource_append (eq_ok_of_toOption hp) (eq_ok_of_toOption hq) hclosed⟩

end SvLang
