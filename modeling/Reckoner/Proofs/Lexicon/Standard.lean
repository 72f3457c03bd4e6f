import Reckoner.Proofs.Lexicon.Longest
import Reckoner.Token.Lexer

set_option autoImplicit false

namespace Reckoner

namespace Lexicon

section split

variable {l : Lexicon} {c : Char} {rest : List Char}

theorem split?_symbol {symbol : String} (found : l.symbolAt? (c :: rest) = some symbol) :
    l.split? c rest = some (.operator, symbol.toList, (c :: rest).drop symbol.length) := by
  simp only [split?, found]

theorem split?_number (none : l.symbolAt? (c :: rest) = none)
    (number : l.classes .numberStart c = true) :
    l.split? c rest = some (.number, stretch c (l.classes .numberBody) rest) := by
  simp only [split?, none, number, if_true]

theorem split?_string (none : l.symbolAt? (c :: rest) = none)
    (number : l.classes .numberStart c = false) (string : l.classes .stringHead c = true) :
    l.split? c rest = some (.string, enclosed c rest) := by
  simp only [split?, none, number, string, Bool.false_eq_true, if_false, if_true]

theorem split?_word (none : l.symbolAt? (c :: rest) = none)
    (number : l.classes .numberStart c = false) (string : l.classes .stringHead c = false)
    (word : l.classes .wordStart c = true) :
    l.split? c rest = some (.word, stretch c (l.classes .wordBody) rest) := by
  simp only [split?, none, number, string, word, Bool.false_eq_true, if_false, if_true]

theorem split?_whitespace (none : l.symbolAt? (c :: rest) = none)
    (number : l.classes .numberStart c = false) (string : l.classes .stringHead c = false)
    (word : l.classes .wordStart c = false) (white : l.classes .whitespace c = true) :
    l.split? c rest = some (.whitespace, stretch c (l.classes .whitespace) rest) := by
  simp only [split?, none, number, string, word, white, Bool.false_eq_true, if_false, if_true]

theorem split?_bracket {kind : TokenKind} (none : l.symbolAt? (c :: rest) = none)
    (number : l.classes .numberStart c = false) (string : l.classes .stringHead c = false)
    (word : l.classes .wordStart c = false) (white : l.classes .whitespace c = false)
    (bracket : bracket? c = some kind) : l.split? c rest = some (kind, [c], rest) := by
  simp only [split?, none, number, string, word, white, bracket, Bool.false_eq_true, if_false,
    Option.map_some]

theorem eq_of_bracket? {kind : TokenKind} (bracket : bracket? c = some kind) :
    c = '(' ∨ c = ')' ∨ c = '[' ∨ c = ']' := by
  grind [bracket?]

end split

/-- Where a token is over: at the end of a text, or before a space. -/
def Gap (cs : List Char) : Prop :=
  ∀ c ∈ cs.head?, c = ' '

/-- Whether characters that are not blank at the front are one token of the kind, wherever they end
at a gap. -/
def Reads (l : Lexicon) (kind : TokenKind) : List Char → Prop
  | [] => False
  | c :: rest =>
    l.classes .whitespace c = false ∧
      ∀ after, Gap after → l.split? c (rest ++ after) = some (kind, c :: rest, after)

theorem Gap.nil : Gap [] :=
  nofun

theorem Gap.space (cs : List Char) : Gap (' ' :: cs) := by
  intro c first
  exact (Option.some.inj first).symm

/-- What stands at the front of a text up to a gap, and has no space in it, stands before the gap. -/
theorem Gap.isPrefix {s cs after : List Char} (gap : Gap after) (solid : ' ' ∉ s)
    (front : s <+: cs ++ after) : s <+: cs := by
  rcases List.prefix_or_prefix_of_prefix front (List.prefix_append cs after) with within | beyond
  · exact within
  · obtain ⟨u, rfl⟩ := beyond
    rw [List.prefix_append_right_inj] at front
    cases u with
    | nil => simp only [List.append_nil, List.prefix_refl]
    | cons c rest =>
      obtain ⟨others, rfl⟩ := front
      have space : c = ' ' := gap c rfl
      rw [space] at solid
      exact absurd (List.mem_append_right cs List.mem_cons_self) solid

theorem stretch_of_ended {members : Char → Bool} {rest after : List Char} (first : Char)
    (within : ∀ c ∈ rest, members c = true) (ended : ∀ c ∈ after.head?, members c = false) :
    stretch first members (rest ++ after) = (first :: rest, after) := by
  have here : after.takeWhile members = [] ∧ after.dropWhile members = after := by
    cases after with
    | nil => exact ⟨rfl, rfl⟩
    | cons c others =>
      rw [List.takeWhile_cons, List.dropWhile_cons, ended c rfl]
      exact ⟨rfl, rfl⟩
  rw [stretch, List.takeWhile_append_of_pos within, List.dropWhile_append_of_pos within, here.1,
    here.2, List.append_nil]

theorem stretch_of_gap {members : Char → Bool} {rest after : List Char} (first : Char)
    (within : ∀ c ∈ rest, members c = true) (solid : members ' ' = false) (gap : Gap after) :
    stretch first members (rest ++ after) = (first :: rest, after) := by
  apply stretch_of_ended first within
  intro c head
  rw [gap c head, solid]

theorem bne_of_not_mem {delimiter : Char} {body : List Char} (inside : delimiter ∉ body) :
    ∀ c ∈ body, (c != delimiter) = true := by
  intro c member
  rw [bne_iff_ne]
  rintro rfl
  exact inside member

theorem enclosed_of_closed {delimiter : Char} {body : List Char} (inside : delimiter ∉ body)
    (after : List Char) :
    enclosed delimiter (body ++ delimiter :: after) =
      (delimiter :: (body ++ [delimiter]), after) := by
  have within := bne_of_not_mem inside
  simp only [enclosed, List.dropWhile_append_of_pos within, List.takeWhile_append_of_pos within,
    List.dropWhile_cons, List.takeWhile_cons, bne_self_eq_false, Bool.false_eq_true, if_false,
    List.append_nil]

theorem enclosed_of_unclosed {delimiter : Char} {body : List Char} (inside : delimiter ∉ body) :
    enclosed delimiter body = (delimiter :: body, []) := by
  have passed : (body ++ []).dropWhile (· != delimiter) = [] :=
    List.dropWhile_append_of_pos (bne_of_not_mem inside)
  rw [List.append_nil] at passed
  simp only [enclosed, passed]

end Lexicon

namespace CharClasses

theorem isBlank_of_isWordChar {c : Char} (member : isWordChar c = true) :
    Text.isBlank c = false := by
  change (decide (65 ≤ c.val ∧ c.val ≤ 90) || decide (97 ≤ c.val) && decide (c.val ≤ 122) ||
    decide (48 ≤ c.val) && decide (c.val ≤ 57) || decide (c = '_')) = true at member
  simp only [Bool.or_eq_true, Bool.and_eq_true, decide_eq_true_eq, UInt32.le_iff_toNat_le] at member
  change (((65 ≤ c.toNat ∧ c.toNat ≤ 90) ∨ (97 ≤ c.toNat ∧ c.toNat ≤ 122)) ∨
    (48 ≤ c.toNat ∧ c.toNat ≤ 57)) ∨ c = '_' at member
  rcases member with within | rfl
  · simp only [Text.isBlank, Bool.or_eq_false_iff, Bool.and_eq_false_iff, decide_eq_false_iff_not,
      beq_eq_false_iff_ne]
    omega
  · decide

theorem isBlank_of_isDigit {c : Char} (digit : c.isDigit = true) : Text.isBlank c = false := by
  apply isBlank_of_isWordChar
  rw [isWordChar, Char.isAlphanum, digit, Bool.or_true, Bool.true_or]

theorem stringHead_of_isWordChar {c : Char} (member : isWordChar c = true) :
    standard .stringHead c = false := by
  by_cases double : c = '\x22'
  · rw [double] at member
    exact absurd member (by decide)
  · by_cases single : c = '\x27'
    · rw [single] at member
      exact absurd member (by decide)
    · simp only [standard, double, single, decide_false, Bool.or_false]

end CharClasses

namespace Standard

open Lexicon

variable {φ : Type}

def symbols : List String :=
  (operators : List (String × Operator Empty)).map Prod.fst

theorem map_fst_operators :
    (operators : List (String × Operator φ)).map Prod.fst = symbols := rfl

theorem mem_symbols_standard {s : String} :
    s ∈ (Config.standard : Config φ).symbols ↔ s ∈ symbols := by
  rw [Config.mem_symbols, Config.standard, Std.TreeMap.mem_ofList, map_fst_operators,
    List.contains_iff_mem]

/-- The symbols of the standard operators in the order in which they are tried. -/
def symbolsInOrder : List String :=
  ["and", "!=", "<=", ">=", "in", "or", "&", "*", "+", ",", "-", "/", ";", "<", "=", ">", "^", "|"]

theorem symbols_standard : (Config.standard : Config φ).symbols = symbolsInOrder := by
  have perm : symbolsInOrder.Perm symbols := by decide
  refine Config.symbols_eq (fun s => ?_) (by decide)
  rw [perm.mem_iff, ← mem_symbols_standard (φ := φ), Config.mem_symbols]

theorem lexicon_eq {c : Config φ} (same : c.operators = Config.standard.operators) :
    c.lexicon = ⟨symbolsInOrder, c.classes⟩ := by
  have symbols : c.symbols = symbolsInOrder := by
    rw [Config.symbols, same]
    exact symbols_standard (φ := φ)
  rw [Config.lexicon, symbols]

theorem symbol_ne_empty : ∀ s ∈ symbols, s ≠ "" := by decide

theorem space_not_mem_symbol : ∀ s ∈ symbols, ' ' ∉ s.toList := by decide

theorem blank_not_mem_symbol : ∀ s ∈ symbols, s.toList.all (fun c => !Text.isBlank c) = true := by
  decide

/-- Whether a character starts a number, a string, a blank stretch or a bracket. -/
def startsOther (c : Char) : Bool :=
  CharClasses.standard .numberStart c || CharClasses.standard .stringHead c ||
    CharClasses.standard .whitespace c || (bracket? c).isSome

theorem startsOther_of_symbol : ∀ s ∈ symbols, s.toList.head?.any startsOther = false := by
  decide

theorem symbolAt?_eq_none {cs : List Char} (apart : ∀ s ∈ symbols, ¬ s.toList <+: cs) :
    (Config.standard : Config φ).lexicon.symbolAt? cs = none := by
  rw [Config.symbolAt?_eq_none_iff]
  intro s member _
  exact apart s (mem_symbols_standard.1 member)

theorem symbolAt?_of_startsOther {c : Char} (other : startsOther c = true) (rest : List Char) :
    (Config.standard : Config φ).lexicon.symbolAt? (c :: rest) = none := by
  apply symbolAt?_eq_none
  intro s member front
  cases spelled : s.toList with
  | nil => exact symbol_ne_empty s member (String.toList_eq_nil_iff.1 spelled)
  | cons d others =>
    rw [spelled, List.cons_prefix_cons] at front
    have apart := startsOther_of_symbol s member
    rw [spelled, front.1, List.head?_cons, Option.any_some, other] at apart
    cases apart

/-- A symbol is read whole: those that are at the front of it are not longer. -/
theorem reads_symbol {s : String} (member : s ∈ symbols) :
    (Config.standard : Config φ).lexicon.Reads .operator s.toList := by
  have nonempty := symbol_ne_empty s member
  cases spelled : s.toList with
  | nil => exact absurd (String.toList_eq_nil_iff.1 spelled) nonempty
  | cons c rest =>
    have plain := startsOther_of_symbol s member
    rw [spelled, List.head?_cons, Option.any_some] at plain
    simp only [startsOther, Bool.or_eq_false_iff] at plain
    refine ⟨plain.1.2, fun after gap => ?_⟩
    have found : (Config.standard : Config φ).lexicon.symbolAt? (c :: (rest ++ after)) = some s := by
      rw [← List.cons_append, ← spelled, Config.symbolAt?_eq_some_iff]
      refine ⟨mem_symbols_standard.2 member, nonempty, List.prefix_append _ _, fun t known fits => ?_⟩
      -- A longer symbol would reach into the gap, and no symbol has a space in it.
      have solid := space_not_mem_symbol t (mem_symbols_standard.1 known)
      exact utf8ByteSize_le_of_isPrefix (gap.isPrefix solid fits)
    rw [split?_symbol found, ← List.cons_append, ← spelled, ← String.length_toList, List.drop_left]

theorem reads_number {c : Char} {rest : List Char} (digit : c.isDigit = true)
    (within : ∀ d ∈ rest, CharClasses.standard .numberBody d = true) :
    (Config.standard : Config φ).lexicon.Reads .number (c :: rest) := by
  have word : CharClasses.isWordChar c = true := by
    simp only [CharClasses.isWordChar, Char.isAlphanum, digit, Bool.or_true, Bool.true_or]
  have start : CharClasses.standard .numberStart c = true := digit
  have other : startsOther c = true := by
    simp only [startsOther, start, Bool.true_or]
  have solid : CharClasses.standard .numberBody ' ' = false := by decide
  refine ⟨CharClasses.isBlank_of_isWordChar word, fun after gap => ?_⟩
  rw [split?_number (symbolAt?_of_startsOther other _) start]
  exact congrArg (fun parts => some (TokenKind.number, parts)) (stretch_of_gap c within solid gap)

theorem reads_string {delimiter : Char} {body : List Char}
    (quote : delimiter = '\x22' ∨ delimiter = '\x27') (inside : delimiter ∉ body) :
    (Config.standard : Config φ).lexicon.Reads .string (delimiter :: (body ++ [delimiter])) := by
  have facts : CharClasses.standard .whitespace delimiter = false ∧
      CharClasses.standard .numberStart delimiter = false ∧
      CharClasses.standard .stringHead delimiter = true ∧ startsOther delimiter = true := by
    rcases quote with rfl | rfl <;> decide
  obtain ⟨white, number, string, other⟩ := facts
  refine ⟨white, fun after _ => ?_⟩
  rw [split?_string (symbolAt?_of_startsOther other _) number string, List.append_assoc,
    List.singleton_append, enclosed_of_closed inside]

theorem reads_word {c : Char} {rest : List Char} (start : c.isDigit = false)
    (within : ∀ d ∈ c :: rest, CharClasses.isWordChar d = true)
    (apart : ∀ s ∈ symbols, ¬ s.toList <+: c :: rest) :
    (Config.standard : Config φ).lexicon.Reads .word (c :: rest) := by
  have word := within c List.mem_cons_self
  have string := CharClasses.stringHead_of_isWordChar word
  have solid : CharClasses.standard .wordBody ' ' = false := by decide
  refine ⟨CharClasses.isBlank_of_isWordChar word, fun after gap => ?_⟩
  have none : (Config.standard : Config φ).lexicon.symbolAt? (c :: (rest ++ after)) = none := by
    apply symbolAt?_eq_none
    intro s member front
    exact apart s member (gap.isPrefix (space_not_mem_symbol s member) front)
  rw [split?_word none start string word]
  exact congrArg (fun parts => some (TokenKind.word, parts))
    (stretch_of_gap c (fun d member => within d (List.mem_cons_of_mem c member)) solid gap)

theorem reads_bracket {c : Char} {kind : TokenKind} (bracket : bracket? c = some kind) :
    (Config.standard : Config φ).lexicon.Reads kind [c] := by
  have facts : CharClasses.standard .whitespace c = false ∧
      CharClasses.standard .numberStart c = false ∧ CharClasses.standard .stringHead c = false ∧
      CharClasses.standard .wordStart c = false ∧ startsOther c = true := by
    rcases eq_of_bracket? bracket with rfl | rfl | rfl | rfl <;> decide
  obtain ⟨white, number, string, word, other⟩ := facts
  refine ⟨white, fun after _ => ?_⟩
  rw [List.nil_append]
  exact split?_bracket (symbolAt?_of_startsOther other after) number string word white bracket

theorem split?_space {c : Char} (white : CharClasses.standard .whitespace c = false)
    (rest : List Char) :
    (Config.standard : Config φ).lexicon.split? ' ' (c :: rest) =
      some (.whitespace, [' '], c :: rest) := by
  have other : startsOther ' ' = true := by decide
  have alone : stretch ' ' (CharClasses.standard .whitespace) (c :: rest) = ([' '], c :: rest) := by
    simp only [stretch, List.takeWhile_cons, List.dropWhile_cons, white, Bool.false_eq_true,
      if_false]
  have read := split?_whitespace (symbolAt?_of_startsOther (φ := φ) other (c :: rest)) rfl rfl rfl rfl
  rw [read]
  exact congrArg (fun parts => some (TokenKind.whitespace, parts)) alone

end Standard

end Reckoner
