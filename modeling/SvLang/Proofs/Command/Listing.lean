import SvLang.Proofs.Command.Compile
import SvLang.Proofs.Java.Lines
import SvLang.Proofs.Text.Quoted

/-!
# Token listings are lossless

A token listing has one line for each token: the name of its kind, its text between quotes, and the
bytes that it was written at.  The text may be any text, also one that looks like the rest of a
line, or like several lines.  What keeps it apart is that quoting leaves no quote unescaped and no
line feed at all.  So a listing is cut into its lines first, and each line is read from left to
right (`readLine?`); `lossless_tokenDump` is the main statement.

Which characters are shown as themselves is left open (`tokenListing`).  The reader does not need
to know, and the listing of the command is the case of the printable ones.
-/

set_option autoImplicit false

namespace SvLang

open SvLang.Java (lines lines_cons)
open SvLang.Text (IsControl quotedWith readQuoted? isPrintable)

/-! ## Listings -/

/-- One line of a token listing, if `shows` says which characters of its text are shown as
themselves. -/
def Token.listingWith (shows : Char → Bool) (t : Token) : String :=
  t.kind.name ++ " " ++ quotedWith shows t.text ++ " @" ++ toString t.span.start.toNat ++ ".." ++
    toString t.span.stop.toNat

/-- A token listing, if `shows` says which characters of the texts are shown as themselves. -/
def tokenListing (shows : Char → Bool) (ts : List Token) : String :=
  String.join (ts.map fun t ↦ t.listingWith shows ++ "\n")

/-- The listing of the command shows the printable characters. -/
theorem tokenDump_pretty : tokenDump .pretty = tokenListing isPrintable := by
  have hline : Token.listing = Token.listingWith isPrintable := by
    funext t
    rw [Token.listing, Token.listingWith, Text.quoted_eq_quotedWith]
  funext ts
  rw [tokenDump, tokenListing, hline]

/-! ## Reading a listing -/

/-- The two numbers of a span, with two dots between them. -/
def readSpan (cs : List Char) : Span :=
  .between (Nat.ofDigitChars 10 (cs.takeWhile (·.isDigit)) 0)
    (Nat.ofDigitChars 10 ((cs.dropWhile (·.isDigit)).drop 2) 0)

/-- The token of a line. -/
def readLine? (line : String) : Option Token :=
  match line.toList.dropWhile (· ≠ ' ') with
  | ' ' :: '\x22' :: cs => do
    let kind ← TokenKind.ofName? (String.ofList (line.toList.takeWhile (· ≠ ' ')))
    let (text, rest) ← readQuoted? .text cs
    return ⟨kind, String.ofList text, readSpan (rest.drop 2)⟩
  | _ => none

/-- The tokens of a listing.  Behind its last line feed there is nothing to read. -/
def readListing? (text : String) : Option (List Token) := (lines text).dropLast.mapM readLine?

/-! ### The parts of a line -/

/-- Every kind has a name of its own. -/
theorem TokenKind.ofName?_name (k : TokenKind) : ofName? k.name = some k := by
  have hall : ∀ k ∈ all, ofName? k.name = some k := by decide
  exact hall k (mem_all k)

/-- The name of a kind is one word, and it shows by itself. -/
theorem TokenKind.ne_of_mem_name {k : TokenKind} {c : Char} (h : c ∈ k.name.toList) :
    c ≠ ' ' ∧ ¬ IsControl c := by
  have hall : ∀ k ∈ all, k.name.toList.all fun c ↦ c ≠ ' ' ∧ ¬ IsControl c := by decide
  exact of_decide_eq_true (List.all_eq_true.1 (hall k (mem_all k)) c h)

/-- How a span is written. -/
def Span.listing (s : Span) : List Char :=
  Nat.toDigits 10 s.start.toNat ++ '.' :: '.' :: Nat.toDigits 10 s.stop.toNat

theorem readSpan_listing (s : Span) : readSpan s.listing = s := by
  have hdigits : ∀ c ∈ Nat.toDigits 10 s.start.toNat, c.isDigit := fun c ↦
    Nat.isDigit_of_mem_toDigits (by decide) (by decide)
  have hdot : ∀ c ∈ ('.' :: '.' :: Nat.toDigits 10 s.stop.toNat).head?, ¬ c.isDigit := by
    rintro c ⟨⟩
    decide
  rw [readSpan, Span.listing, takeWhile_append_run hdigits hdot,
    dropWhile_append_run hdigits hdot, List.drop_succ_cons, List.drop_succ_cons, List.drop_zero,
    Nat.ofDigitChars_ten_toDigits, Nat.ofDigitChars_ten_toDigits, Span.between,
    UInt32.ofNat_toNat, UInt32.ofNat_toNat]

theorem not_isControl_of_isDigit {c : Char} (h : c.isDigit) : ¬ IsControl c := by
  rw [Char.isDigit, Bool.and_eq_true, decide_eq_true_eq, decide_eq_true_eq] at h
  have hlow : 48 ≤ c.toNat := h.1
  have hhigh : c.toNat ≤ 57 := h.2
  rw [IsControl]
  omega

theorem not_isControl_of_mem_span {s : Span} {c : Char} (h : c ∈ s.listing) : ¬ IsControl c := by
  have hdigit : ∀ {n : Nat}, c ∈ Nat.toDigits 10 n → ¬ IsControl c := fun h ↦
    not_isControl_of_isDigit (Nat.isDigit_of_mem_toDigits (by decide) (by decide) h)
  rw [Span.listing, List.mem_append, List.mem_cons, List.mem_cons] at h
  rcases h with h | rfl | rfl | h
  · exact hdigit h
  · decide
  · decide
  · exact hdigit h

/-! ### Lines -/

/-- The characters of a line, part by part. -/
theorem Token.toList_listingWith (shows : Char → Bool) (t : Token) :
    (t.listingWith shows).toList =
      t.kind.name.toList ++ ' ' :: ((quotedWith shows t.text).toList ++ ' ' :: '@' ::
        t.span.listing) := by
  simp [Token.listingWith, Span.listing]

/-- A line is read back, whichever characters it shows. -/
theorem readLine?_listingWith (shows : Char → Bool) (t : Token) :
    readLine? (t.listingWith shows) = some t := by
  have hname : ∀ c ∈ t.kind.name.toList, decide (c ≠ ' ') := fun c hc ↦
    decide_eq_true (TokenKind.ne_of_mem_name hc).1
  have hspace : ∀ cs : List Char, ∀ c ∈ (' ' :: cs).head?, ¬ decide (c ≠ ' ') := by
    rintro cs c ⟨⟩
    decide
  rw [readLine?, t.toList_listingWith, takeWhile_append_run hname (hspace _),
    dropWhile_append_run hname (hspace _), quotedWith, String.toList_ofList, List.cons_append,
    List.append_assoc, List.singleton_append]
  simp only [String.ofList_toList, TokenKind.ofName?_name, Text.readQuoted?_flatMap_append,
    List.drop_succ_cons, List.drop_zero, readSpan_listing, Option.bind_eq_bind, Option.bind_some]
  rfl

section Lines

variable {shows : Char → Bool} (hshows : ∀ c, IsControl c → shows c = false)

include hshows

/-- A line shows by itself, whatever the text of the token is. -/
theorem not_isControl_of_mem_listingWith {t : Token} {c : Char}
    (h : c ∈ (t.listingWith shows).toList) : ¬ IsControl c := by
  rw [t.toList_listingWith, List.mem_append, List.mem_cons, List.mem_append, List.mem_cons,
    List.mem_cons] at h
  rcases h with h | rfl | h | rfl | rfl | h
  · exact (TokenKind.ne_of_mem_name h).2
  · decide
  · exact Text.not_isControl_of_mem_quotedWith hshows h
  · decide
  · decide
  · exact not_isControl_of_mem_span h

/-- The lines of a listing are those of its tokens. -/
theorem lines_tokenListing (ts : List Token) :
    lines (tokenListing shows ts) = ts.map (Token.listingWith shows) ++ [""] := by
  induction ts with
  | nil =>
    rw [tokenListing, List.map_nil, String.join_nil]
    rfl
  | cons t ts ih =>
    have hline : '\n' ∉ (t.listingWith shows).toList := fun h ↦
      not_isControl_of_mem_listingWith hshows h (by decide)
    rw [tokenListing, List.map_cons, String.join_cons, lines_cons hline, ← tokenListing, ih]
    rfl

theorem readListing?_tokenListing (ts : List Token) :
    readListing? (tokenListing shows ts) = some ts := by
  rw [readListing?, lines_tokenListing hshows, List.dropLast_concat, List.mapM_map]
  have hline : readLine? ∘ Token.listingWith shows = fun t ↦ pure t :=
    funext (readLine?_listingWith shows)
  rw [hline, List.mapM_pure, List.map_id']
  rfl

end Lines

/-! ## Nothing is lost -/

/-- A way to list tokens that loses nothing. -/
structure LosslessListing (listing : List Token → String) : Prop where
  /-- Each token has one line, on which there is no control character, and nothing is written
  behind the last line. -/
  oneLine : ∃ line : Token → String, (∀ t, ∀ c ∈ (line t).toList, ¬ IsControl c) ∧
    ∀ ts, lines (listing ts) = ts.map line ++ [""]
  /-- The tokens can be read back. -/
  readsBack : ∀ ts, readListing? (listing ts) = some ts
  /-- Different tokens have different listings. -/
  injective : Function.Injective listing

theorem lossless_tokenListing {shows : Char → Bool}
    (hshows : ∀ c, IsControl c → shows c = false) : LosslessListing (tokenListing shows) where
  oneLine := ⟨Token.listingWith shows, fun _ _ ↦ not_isControl_of_mem_listingWith hshows,
    lines_tokenListing hshows⟩
  readsBack := readListing?_tokenListing hshows
  injective ts us h := by
    have hread := readListing?_tokenListing hshows ts
    rw [h, readListing?_tokenListing hshows us, Option.some.injEq] at hread
    exact hread.symm

section Running

open SvLang.Command (HasSource)

variable {σ : Type} {fs : FileSystem σ} {s : σ} {file source : String} {ts : List Token}

/-- Listing the tokens of a source prints the listing and changes no file. -/
theorem run_tokens (format : Format) (hsource : HasSource fs s file source)
    (htokens : tokenize source = .ok ts) :
    ((Command.tokens file format).run fs.files).run s = (⟨0, tokenDump format ts, ""⟩, s) := by
  have hrun : (Command.runTokens fs.files file format).run.run s =
      (.ok (tokenDump format ts), s) := by
    rw [Command.runTokens, Command.run_bind_of_ok hsource.run_readSource, htokens]
    rfl
  rw [Command.run, StateT.run_map, hrun]
  rfl

end Running

/-- **Token listings are lossless.**  Every list of tokens, whatever their texts are, is written on
as many lines as there are tokens, and is read back from these.  So it is with any choice of the
characters that are shown as themselves, as long as no control character is; the listing that the
command prints for a source is one of these. -/
theorem lossless_tokenDump :
    (∀ (σ : Type) (fs : FileSystem σ) (s : σ) (file source : String) (ts : List Token),
      Command.HasSource fs s file source → tokenize source = .ok ts →
      ((Command.tokens file .pretty).run fs.files).run s = (⟨0, tokenDump .pretty ts, ""⟩, s)) ∧
    LosslessListing (tokenDump .pretty) ∧
    ∀ shows : Char → Bool, (∀ c, IsControl c → shows c = false) →
      LosslessListing (tokenListing shows) := by
  refine ⟨fun σ fs s file source ts ↦ run_tokens .pretty, ?_, fun shows ↦ lossless_tokenListing⟩
  rw [tokenDump_pretty]
  exact lossless_tokenListing fun c ↦ Text.isPrintable_of_isControl

/-- A source and its listing; and a text that goes on like a line, written by codes alone. -/
theorem lossless_tokenDump_lines :
    ((Command.tokens "a.sv" .pretty).run Disk.fileSystem.files).run Command.earlierOutput =
      (⟨0, "Sv \"sv\" @0..2\nIdentifier \"x\" @3..4\nEquals \"=\" @5..6\n" ++
          "Number \"1\" @7..8\nSemi \";\" @8..9\nEof \"EndOfFile\" @9..9\n", ""⟩,
        Command.earlierOutput) ∧
    readListing? (tokenListing (fun _ ↦ false)
        [⟨.text .double, "\" @0..3\nEof \"", ⟨0, 16⟩⟩, .endOfFile 16]) =
      some [⟨.text .double, "\" @0..3\nEof \"", ⟨0, 16⟩⟩, .endOfFile 16] := by
  have htokens : tokenize "sv x = 1;" = .ok
      [⟨.keyword .svWord, "sv", .between 0 2⟩, ⟨.identifier, "x", .between 3 4⟩,
        ⟨.symbol .assign, "=", .between 5 6⟩, ⟨.number .numeric, "1", .between 7 8⟩,
        ⟨.symbol .semicolon, ";", .between 8 9⟩, .endOfFile 9] :=
    eq_ok_of_toOption (by decide +kernel)
  obtain ⟨hrun, -, hall⟩ := lossless_tokenDump
  refine ⟨?_, (hall (fun _ ↦ false) fun _ _ ↦ rfl).readsBack _⟩
  rw [hrun _ Disk.fileSystem _ _ _ _ Command.hasSource_earlierOutput htokens]
  exact Prod.ext (by decide +kernel) rfl

end SvLang
