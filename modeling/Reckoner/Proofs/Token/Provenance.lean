import Reckoner.Proofs.Evaluation
import Reckoner.Proofs.Lexicon.Longest
import Reckoner.Proofs.Token.Coverage

set_option autoImplicit false

namespace Reckoner

def TokenKind.delimiter? : TokenKind → Option Char
  | openParen => some '('
  | closeParen => some ')'
  | openBracket => some '['
  | closeBracket => some ']'
  | _ => none

/-- Whether a character stands in a source at an offset. -/
def Text.StandsAt (source : String) (place : Nat) (c : Char) : Prop :=
  ∃ before after : String,
    source = before ++ String.ofList [c] ++ after ∧ place = before.utf8ByteSize

namespace Text.StandsAt

variable {source : String} {place : Nat} {c : Char}

theorem lt (stands : StandsAt source place c) : place < source.utf8ByteSize := by
  obtain ⟨before, after, rfl, rfl⟩ := stands
  have width : (String.ofList [c]).utf8ByteSize ≠ 0 := by
    rw [Ne, String.utf8ByteSize_eq_zero_iff]
    simp
  rw [String.utf8ByteSize_append, String.utf8ByteSize_append]
  omega

theorem isValid (stands : StandsAt source place c) : (⟨place⟩ : String.Pos.Raw).IsValid source := by
  obtain ⟨before, after, rfl, rfl⟩ := stands
  rw [String.Pos.Raw.isValid_iff_exists_append]
  exact ⟨before, String.ofList [c] ++ after, String.append_assoc, rfl⟩

end Text.StandsAt

namespace Lexicon

variable {l : Lexicon} {c : Char} {rest taken after : List Char} {kind : TokenKind}

theorem bracket?_eq_some_iff : bracket? c = some kind ↔ kind.delimiter? = some c := by
  unfold bracket?
  cases kind <;> simp only [TokenKind.delimiter?] <;> grind

/-- How characters are split off at the front of a text, by kind: as a symbol, as what a class makes of
the first character, or as a bracket. -/
inductive Splits (l : Lexicon) (c : Char) (rest taken after : List Char) : TokenKind → Prop
  | operator {symbol : String} (found : l.symbolAt? (c :: rest) = some symbol)
      (whole : taken = symbol.toList) : Splits l c rest taken after .operator
  | number (start : l.classes .numberStart c = true)
      (parts : stretch c (l.classes .numberBody) rest = (taken, after)) :
      Splits l c rest taken after .number
  | string (head : l.classes .stringHead c = true) (parts : enclosed c rest = (taken, after)) :
      Splits l c rest taken after .string
  | word (start : l.classes .wordStart c = true)
      (parts : stretch c (l.classes .wordBody) rest = (taken, after)) :
      Splits l c rest taken after .word
  | whitespace (blank : l.classes .whitespace c = true)
      (parts : stretch c (l.classes .whitespace) rest = (taken, after)) :
      Splits l c rest taken after .whitespace
  | bracket {kind : TokenKind} {d : Char} (delimiter : kind.delimiter? = some d)
      (whole : taken = [d]) : Splits l c rest taken after kind

theorem splits_of_split? (split : l.split? c rest = some (kind, taken, after)) :
    Splits l c rest taken after kind := by
  unfold split? at split
  split at split
  · next symbol found =>
    cases split
    exact .operator found rfl
  · split at split
    · next start =>
      obtain ⟨rfl, parts⟩ := Prod.mk.inj (Option.some.inj split)
      exact .number start parts
    · split at split
      · next head =>
        obtain ⟨rfl, parts⟩ := Prod.mk.inj (Option.some.inj split)
        exact .string head parts
      · split at split
        · next start =>
          obtain ⟨rfl, parts⟩ := Prod.mk.inj (Option.some.inj split)
          exact .word start parts
        · split at split
          · next blank =>
            obtain ⟨rfl, parts⟩ := Prod.mk.inj (Option.some.inj split)
            exact .whitespace blank parts
          · obtain ⟨found, which, same⟩ := Option.map_eq_some_iff.1 split
            cases same
            exact .bracket (bracket?_eq_some_iff.1 which) rfl

theorem split?_delimiter {d : Char} (split : l.split? c rest = some (kind, taken, after))
    (delimiter : kind.delimiter? = some d) : taken = [d] := by
  cases splits_of_split? split with
  | bracket which whole =>
    rw [delimiter, Option.some.injEq] at which
    rw [which, whole]
  | _ => cases delimiter

theorem split?_operator (split : l.split? c rest = some (.operator, taken, after)) :
    ∃ symbol, l.symbolAt? (c :: rest) = some symbol ∧ taken = symbol.toList := by
  cases splits_of_split? split with
  | operator found whole => exact ⟨_, found, whole⟩
  | bracket which _ => cases which

theorem split?_number_start (split : l.split? c rest = some (.number, taken, after)) :
    l.classes .numberStart c = true ∧ ∃ run, taken = c :: run := by
  cases splits_of_split? split with
  | number start parts => exact ⟨start, _, (Prod.mk.inj parts).1.symm⟩
  | bracket which _ => cases which

/-- What is split off as a string begins with a character for it and goes on to where that stands
again. -/
theorem split?_string_enclosed (split : l.split? c rest = some (.string, taken, after)) :
    l.classes .stringHead c = true ∧ enclosed c rest = (taken, after) := by
  cases splits_of_split? split with
  | string head parts => exact ⟨head, parts⟩
  | bracket which _ => cases which

end Lexicon

namespace Lexer

variable {x y : Lexer} {tokens : List Token}

theorem exists_yields_of_items {later : List (Except Fault Token)}
    (items : Source.items x = tokens.map .ok ++ later) :
    ∃ y, Yields x tokens y ∧ Source.items y = later := by
  induction tokens generalizing x with
  | nil => exact ⟨x, .nothing x, items⟩
  | cons t rest ih =>
    obtain ⟨between, pulled, others⟩ := Source.exists_of_items_cons items
    obtain ⟨y, yields, remaining⟩ := ih others
    exact ⟨y, .token pulled yields, remaining⟩

theorem exists_yields_of_mem_items (running : x.failed = false) {t : Token}
    (member : .ok t ∈ Source.items x) : ∃ tokens y, Yields x tokens y ∧ t ∈ tokens := by
  obtain ⟨tokens, y, yields, ended⟩ := exists_yields x running
  refine ⟨tokens, y, yields, ?_⟩
  rw [yields.items, List.mem_append] at member
  rcases member with within | beyond
  · simpa using within
  · rcases ended with ⟨_, nothing⟩ | ⟨fault, _, failed⟩
    · rw [Source.items_of_pull_none nothing] at beyond
      cases beyond
    · have spent : Source.pull { y with failed := true } = (none, { y with failed := true }) := rfl
      rw [Source.items_of_pull_some failed, Source.items_of_pull_none spent] at beyond
      simp at beyond

/-- A call that yields a fault does so at the next character, and changes nothing but that it is the
last one. -/
theorem exists_of_next_error {fault : Fault} (failed : x.next = (some (.error fault), y)) :
    ∃ c rest, x.rest = c :: rest ∧ y = { x with failed := true } ∧
      (fault = .unrecognizedCharacter c x.position ∨
        c = ']' ∧ fault = .mismatchedBracket x.position) := by
  unfold next at failed
  split at failed
  · cases failed
  · split at failed
    · cases failed
    · next c rest front =>
      obtain ⟨item, rfl⟩ := Prod.mk.inj failed
      have read : x.read c rest = (.error fault, (x.read c rest).2) :=
        Prod.ext (Option.some.inj item) rfl
      refine ⟨c, rest, front, (read_error read).2, ?_⟩
      unfold Lexer.read at read
      split at read
      · exact .inl (Except.error.inj (Prod.mk.inj read).1).symm
      · next kind taken after found =>
        split at read
        · next closed =>
          refine .inr ⟨?_, (Except.error.inj (Prod.mk.inj read).1).symm⟩
          -- Only a `]` can be one too many.
          cases kind <;> simp only [depthAfter?, reduceCtorEq] at closed
          have taken' := Lexicon.split?_delimiter found rfl
          have whole := (Lexicon.split?_append found).2
          rw [taken'] at whole
          exact (List.cons.inj whole).1.symm
        · cases read

theorem Yields.exists_split (yields : Yields x tokens y) :
    ∀ t ∈ tokens, ∃ c rest taken after,
      x.lexicon.split? c rest = some (t.kind, taken, after) ∧ t.raw = String.ofList taken := by
  induction yields with
  | nothing x => exact nofun
  | token here later ih =>
    obtain ⟨c, rest, taken, after, kind, depth, _, _, split, _, rfl, rfl⟩ := exists_of_next_ok here
    exact List.forall_mem_cons.2 ⟨⟨c, rest, taken, after, split, rfl⟩, ih⟩

theorem Yields.raw_of_delimiter (yields : Yields x tokens y) {t : Token} (member : t ∈ tokens)
    {d : Char} (delimiter : t.kind.delimiter? = some d) : t.raw = String.ofList [d] := by
  obtain ⟨c, rest, taken, after, split, spelled⟩ := yields.exists_split t member
  rw [spelled, Lexicon.split?_delimiter split delimiter]

/-- The character of a delimiter stands in the source where its token starts. -/
theorem Yields.standsAt {l : Lexicon} {source : String}
    (yields : Yields (Lexer.new l source) tokens y) {t : Token} (member : t ∈ tokens) {d : Char}
    (delimiter : t.kind.delimiter? = some d) : Text.StandsAt source t.start d := by
  obtain ⟨before, after, whole, place⟩ := Token.exists_of_mem yields.consecutive member
  refine ⟨before, after ++ String.ofList y.rest, ?_, place.trans (Nat.zero_add _)⟩
  rw [← yields.covers.text, whole, yields.raw_of_delimiter member delimiter]
  simp only [String.append_assoc]

end Lexer

theorem Config.symbol_of_yields {φ : Type} {config : Config φ} {source : String}
    {tokens : List Token} {y : Lexer} (yields : (config.tokens source).Yields tokens y) {t : Token}
    (member : t ∈ tokens) (kind : t.kind = .operator) : t.raw ≠ "" ∧ t.raw ∈ config.operators := by
  obtain ⟨c, rest, taken, after, split, spelled⟩ := yields.exists_split t member
  rw [kind] at split
  obtain ⟨symbol, found, rfl⟩ := Lexicon.split?_operator split
  obtain ⟨known, solid, _⟩ := Config.symbolAt?_eq_some_iff.1 found
  rw [spelled, String.ofList_toList]
  exact ⟨solid, Config.mem_symbols.1 known⟩

end Reckoner
