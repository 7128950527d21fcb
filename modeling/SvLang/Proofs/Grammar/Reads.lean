import SvLang.Proofs.Grammar.Leads

/-!
# What a parser has read when it succeeds

`p.Reads P` says that whenever the parser `p` succeeds, what it has taken off the front are tokens,
none of them lost and none used twice, that write some `u` with `P a u` for the value `a` that it
returns.  The rules for sequences hand the part that is already read on to what follows, so a proof
runs through a rule of the grammar from its first token to its last.
-/

set_option autoImplicit false

namespace SvLang

/-- The terminal of a token whose text means nothing. -/
theorem Token.terminal_of_kind {t : Token} {k : TokenKind} (hk : t.kind = k)
    (htext : k.hasText = false) : t.terminal = ⟨k, ""⟩ := by
  subst hk
  rw [Token.terminal, htext, if_neg Bool.false_ne_true]

/-- The terminal of a token whose text means something. -/
theorem Token.terminal_of_hasText {t : Token} {k : TokenKind} (hk : t.kind = k)
    (htext : k.hasText) : t.terminal = ⟨k, t.text⟩ := by
  subst hk
  rw [Token.terminal, if_pos htext]

namespace Parser

variable {α β : Type}

/-- Whenever the parser succeeds with a value `a`, it has taken tokens off the front that write some
`u` with `P a u`. -/
def Reads (p : Parser α) (P : α → List Terminal → Prop) : Prop :=
  ∀ ts a rest, p ts = .ok (a, rest) →
    ∃ used, ts = used ++ rest ∧ P a (used.map Token.terminal)

namespace Reads

variable {p : Parser α} {P Q : α → List Terminal → Prop} {S : β → List Terminal → Prop}

theorem mono (h : p.Reads P) (hPQ : ∀ a u, P a u → Q a u) : p.Reads Q := by
  intro ts a rest hp
  obtain ⟨used, hts, ha⟩ := h ts a rest hp
  exact ⟨used, hts, hPQ _ _ ha⟩

/-- A sequence: what follows starts out with what its first part has read. -/
theorem bind (hp : p.Reads P) {f : α → Parser β}
    (hf : ∀ a u, P a u → (f a).Reads fun b v ↦ S b (u ++ v)) : (p >>= f).Reads S := by
  intro ts b rest h
  obtain ⟨a, middle, h₁, h₂⟩ := bind_eq_ok.1 h
  obtain ⟨first, rfl, ha⟩ := hp _ _ _ h₁
  obtain ⟨second, rfl, hb⟩ := hf a _ ha _ _ _ h₂
  refine ⟨first ++ second, by rw [List.append_assoc], ?_⟩
  rwa [List.map_append]

theorem map (hp : p.Reads P) {f : α → β} (hf : ∀ a u, P a u → S (f a) u) : (f <$> p).Reads S := by
  rw [map_eq_pure_bind]
  refine hp.bind fun a u ha ts b rest h ↦ ?_
  cases h
  exact ⟨[], rfl, by simpa using hf a u ha⟩

end Reads

variable {P : α → List Terminal → Prop}

theorem reads_pure {a : α} (h : P a []) : (pure a : Parser α).Reads P := by
  rintro ts b rest ⟨⟩
  exact ⟨[], rfl, h⟩

theorem reads_fail (problem : ParseProblem) : (fail problem : Parser α).Reads P := by
  rintro ts a rest ⟨⟩

theorem reads_unexpected : (unexpected : Parser α).Reads P := by
  rintro ts a rest ⟨⟩

/-! ## One token -/

/-- A look at the front tells the kind of the first terminal that is going to be read. -/
theorem reads_kind {f : TokenKind → Parser α}
    (hf : ∀ k, (f k).Reads fun a u ↦ (∀ x v, u = x :: v → x.kind = k) → P a u) :
    (kind >>= f).Reads P := by
  intro ts a rest h
  obtain ⟨used, hts, ha⟩ := hf _ ts a rest h
  refine ⟨used, hts, ha fun x v hv ↦ ?_⟩
  obtain ⟨t, used, rfl, rfl, -⟩ := List.map_eq_cons_iff.1 hv
  rw [hts]
  rfl

/-- A look at the front whose only use is to decide what to do. -/
theorem reads_kind' {f : TokenKind → Parser α} (hf : ∀ k, (f k).Reads P) : (kind >>= f).Reads P :=
  reads_kind fun k ↦ (hf k).mono fun _ _ h _ ↦ h

theorem reads_expect (place : Landmark) :
    (expect place).Reads fun text u ↦
      u = [⟨place.kind, if place.kind.hasText then text else ""⟩] := by
  intro ts text rest h
  cases ts with
  | nil => cases h
  | cons t ts =>
    rw [expect] at h
    split at h
    · rename_i hkind
      cases h
      exact ⟨[t], rfl, by rw [List.map_singleton, Token.terminal, hkind]⟩
    · cases h

/-- A token that has to stand there, whatever its text. -/
theorem Reads.expect {place : Landmark} {x : Terminal} (hx : x = ⟨place.kind, ""⟩)
    (htext : place.kind.hasText = false) {p : Parser α} (hp : p.Reads fun a u ↦ P a (x :: u)) :
    (Parser.expect place >>= fun _ ↦ p).Reads P := by
  refine (reads_expect place).bind fun text u hu ↦ ?_
  rw [hu, if_neg (by rw [htext]; exact Bool.false_ne_true), ← hx]
  exact hp

/-- A name that has to stand there. -/
theorem Reads.expect_name {f : String → Parser α}
    (hf : ∀ x, (f x).Reads fun a u ↦ P a (.ofName x :: u)) :
    (Parser.expect .name >>= f).Reads P := by
  refine (reads_expect .name).bind fun x u hu ↦ ?_
  rw [hu]
  exact hf x

/-! ## Choices -/

theorem reads_branch {rule? : Token → Option (Parser α)} {otherwise : Parser α}
    (hr : ∀ t rule, rule? t = some rule → rule.Reads fun a u ↦ P a (t.terminal :: u))
    (ho : otherwise.Reads P) : (branch rule? otherwise).Reads P := by
  intro ts a rest h
  cases ts with
  | nil => exact ho _ _ _ h
  | cons t ts =>
    rw [branch] at h
    split at h
    · rename_i rule hrule
      obtain ⟨used, rfl, ha⟩ := hr t rule hrule _ _ _ h
      exact ⟨t :: used, rfl, ha⟩
    · exact ho _ _ _ h

/-- One case of a table of rules: the rule for tokens of kind `k`, whose text means nothing. -/
theorem reads_rule {t : Token} {k : TokenKind} {r rule : Parser α} (h : some r = some rule)
    (hkind : t.kind = k) (htext : k.hasText = false) (hr : r.Reads fun a u ↦ P a (⟨k, ""⟩ :: u)) :
    rule.Reads fun a u ↦ P a (t.terminal :: u) := by
  obtain rfl := Option.some.inj h
  rw [Token.terminal_of_kind hkind htext]
  exact hr

theorem reads_onKind {k : TokenKind} {x : Terminal} (hx : x = ⟨k, ""⟩) (htext : k.hasText = false)
    {rule otherwise : Parser α} (hr : rule.Reads fun a u ↦ P a (x :: u)) (ho : otherwise.Reads P) :
    (onKind k rule otherwise).Reads P := by
  subst hx
  refine reads_branch (fun t r h ↦ ?_) ho
  split at h
  · rename_i hkind
    exact reads_rule h hkind htext hr
  · cases h

/-! ## Loops and lists

A loop keeps a relation `L` between what it has read as values and what it has read as terminals.
-/

theorem reads_manyUntil {stop : TokenKind → Bool} {item : Parser α} {hi : item.Shrinks}
    {L : List α → List Terminal → Prop} (hitem : item.Reads P) (hnil : L [] [])
    (hsnoc : ∀ as u a v, L as u → P a v → L (as ++ [a]) (u ++ v)) :
    (manyUntil stop item hi).Reads L := by
  have loop : ∀ done ts as rest, manyUntilFrom stop item hi done ts = .ok (as, rest) →
      ∀ u, L done.reverse u → ∃ used, ts = used ++ rest ∧ L as (u ++ used.map Token.terminal) := by
    intro done ts as rest h
    fun_induction manyUntilFrom stop item hi done ts with
    | case1 done ts =>
      cases h
      exact fun u hu ↦ ⟨[], rfl, by simpa using hu⟩
    | case2 => cases h
    | case3 done ts _ a middle ha _ ih =>
      intro u hu
      obtain ⟨first, rfl, hfirst⟩ := hitem _ _ _ ha
      obtain ⟨second, rfl, hsecond⟩ := ih h (u ++ first.map Token.terminal) (by
        rw [List.reverse_cons]
        exact hsnoc _ _ _ _ hu hfirst)
      refine ⟨first ++ second, by rw [List.append_assoc], ?_⟩
      rwa [List.map_append, ← List.append_assoc]
  exact fun ts as rest h ↦ by simpa using loop [] ts as rest h [] hnil

/-- A loop ends in front of a token that ends it. -/
theorem stop_of_manyUntil {stop : TokenKind → Bool} {item : Parser α} {hi : item.Shrinks}
    {ts rest : List Token} {as : List α} (h : manyUntil stop item hi ts = .ok (as, rest)) :
    stop (front rest).kind := by
  rw [manyUntil] at h
  generalize ([] : List α) = done at h
  fun_induction manyUntilFrom stop item hi done ts with
  | case1 done ts hstop =>
    cases h
    exact hstop
  | case2 => cases h
  | case3 done ts _ a middle ha _ ih => exact ih h

theorem reads_extend {more? : Token → Option (α → Parser α)}
    {hm : ∀ t rule, more? t = some rule → ∀ a, (rule a).Keeps}
    (hmore : ∀ t rule, more? t = some rule → ∀ a u, P a u →
      (rule a).Reads fun b v ↦ P b (u ++ t.terminal :: v)) {a : α} {u : List Terminal}
    (ha : P a u) : Reads (extend more? hm a) fun b v ↦ P b (u ++ v) := by
  intro ts
  fun_induction extend more? hm a ts generalizing u with
  | case1 a =>
    rintro b rest ⟨⟩
    exact ⟨[], rfl, by simpa using ha⟩
  | case2 a t ts =>
    rintro b rest ⟨⟩
    exact ⟨[], rfl, by simpa using ha⟩
  | case3 => rintro b rest ⟨⟩
  | case4 a t ts rule hr b middle hb _ ih =>
    intro c rest h
    obtain ⟨first, rfl, hfirst⟩ := hmore t rule hr a u ha _ _ _ hb
    obtain ⟨second, rfl, hsecond⟩ := ih hfirst c rest h
    refine ⟨t :: (first ++ second), by rw [List.cons_append, List.append_assoc], ?_⟩
    simpa using hsecond

section Lists

variable {item : Parser α} {hi : item.Keeps} {L : List α → List Terminal → Prop}

theorem reads_manyAfter {lead : TokenKind} {x : Terminal} (hx : x = ⟨lead, ""⟩)
    (htext : lead.hasText = false) (hitem : item.Reads P)
    (hsnoc : ∀ as u a v, L as u → P a v → L (as ++ [a]) (u ++ x :: v)) {done : List α}
    {u : List Terminal} (hdone : L done.reverse u) :
    (manyAfter lead item hi done).Reads fun as v ↦ L as (u ++ v) := by
  refine Reads.bind (P := fun (items : List α) v ↦ L items.reverse (u ++ v)) ?_ fun items v hv ↦ ?_
  · refine reads_extend (P := fun (items : List α) u ↦ L items.reverse u)
      (fun t rule h items u hu ↦ ?_) hdone
    rw [another?] at h
    split at h
    · rename_i hkind
      cases h
      rw [Token.terminal_of_kind hkind htext, ← hx]
      refine hitem.map fun a v ha ↦ ?_
      rw [List.reverse_cons]
      exact hsnoc _ _ _ _ hu ha
    · cases h
  · exact reads_pure (by simpa using hv)

/-- A list is empty or made of items, and `L` is kept by the items that are there. -/
theorem reads_listUntil {close : TokenKind} {S : List α → List Terminal → Prop}
    (hitem : item.Reads P) (hnil : S [] []) (hitems : ∀ as u, L as u → S as u)
    (hone : ∀ a u, P a u → L [a] u)
    (hsnoc : ∀ as u a v, L as u → P a v → L (as ++ [a]) (u ++ .ofSymbol .comma :: v)) :
    (listUntil close item hi).Reads S := by
  refine reads_kind' fun k ↦ ?_
  split
  · exact reads_pure hnil
  · refine hitem.bind fun a u ha ↦ ?_
    have hdone : L [a].reverse u := hone a u ha
    exact (reads_manyAfter rfl rfl hitem hsnoc hdone).mono fun as v h ↦ hitems as _ h

end Lists

end Parser

end SvLang
