import Reckoner.Fault
import Reckoner.Lexicon.Basic
import Reckoner.Source
import Reckoner.Token.Basic

set_option autoImplicit false

/-!
Splitting a source into tokens, one token a pull.

Blank stretches are tokens too, so the tokens cover the source: each starts where the one before it
stopped. The first character that no rule covers, or a `]` without its `[`, ends the stream with a
fault.
-/

namespace Reckoner

namespace Lexicon

/-- A first character and the members of a class that follow it. -/
def stretch (first : Char) (members : Char → Bool) (rest : List Char) : List Char × List Char :=
  (first :: rest.takeWhile members, rest.dropWhile members)

/-- A first character and all up to its next occurrence, that one included; without one, all. -/
def enclosed (delimiter : Char) (rest : List Char) : List Char × List Char :=
  match rest.dropWhile (· != delimiter) with
  | [] => (delimiter :: rest, [])
  | close :: after => (delimiter :: (rest.takeWhile (· != delimiter) ++ [close]), after)

def bracket? (c : Char) : Option TokenKind :=
  if c = '(' then some .openParen
  else if c = ')' then some .closeParen
  else if c = '[' then some .openBracket
  else if c = ']' then some .closeBracket
  else none

/-- The token that a text begins with, as its kind, its characters and the text after it. Operators
come first, then the classes in the order numbers, strings, words, blanks, and brackets last. -/
def split? (l : Lexicon) (c : Char) (rest : List Char) :
    Option (TokenKind × List Char × List Char) :=
  match l.symbolAt? (c :: rest) with
  | some symbol => some (.operator, symbol.toList, (c :: rest).drop symbol.length)
  | none =>
    if l.classes .numberStart c then some (.number, stretch c (l.classes .numberBody) rest)
    else if l.classes .stringHead c then some (.string, enclosed c rest)
    else if l.classes .wordStart c then some (.word, stretch c (l.classes .wordBody) rest)
    else if l.classes .whitespace c then
      some (.whitespace, stretch c (l.classes .whitespace) rest)
    else (bracket? c).map fun kind => (kind, [c], rest)

theorem stretch_append (first : Char) (members : Char → Bool) (rest : List Char) :
    (stretch first members rest).1 ++ (stretch first members rest).2 = first :: rest := by
  simp [stretch]

theorem enclosed_append (delimiter : Char) (rest : List Char) :
    (enclosed delimiter rest).1 ++ (enclosed delimiter rest).2 = delimiter :: rest := by
  have whole := List.takeWhile_append_dropWhile (p := (· != delimiter)) (l := rest)
  unfold enclosed
  split
  · simp
  · next close after h =>
    rw [h] at whole
    simp [whole]

theorem symbolAt?_append {l : Lexicon} {cs : List Char} {symbol : String}
    (found : l.symbolAt? cs = some symbol) :
    symbol.toList ≠ [] ∧ symbol.toList ++ cs.drop symbol.length = cs := by
  have fits := List.find?_some found
  simp only [Bool.and_eq_true, Bool.not_eq_true', String.isEmpty_eq_false_iff,
    List.isPrefixOf_iff_prefix] at fits
  refine ⟨by simpa using fits.1, ?_⟩
  obtain ⟨after, rfl⟩ := fits.2
  rw [← String.length_toList, List.drop_left]

/-- A token takes at least one character, and the characters it does not take are left. -/
theorem split?_append {l : Lexicon} {c : Char} {rest taken after : List Char} {kind : TokenKind}
    (splits : l.split? c rest = some (kind, taken, after)) :
    taken ≠ [] ∧ taken ++ after = c :: rest := by
  unfold split? at splits
  split at splits
  · next symbol found =>
    simp only [Option.some.injEq, Prod.mk.injEq] at splits
    obtain ⟨_, rfl, rfl⟩ := splits
    exact symbolAt?_append found
  · have ofStretch (members : Char → Bool) (same : stretch c members rest = (taken, after)) :
        taken ≠ [] ∧ taken ++ after = c :: rest := by
      have whole := stretch_append c members rest
      rw [same] at whole
      refine ⟨?_, whole⟩
      rintro rfl
      simp [stretch] at same
    split at splits
    · simp only [Option.some.injEq, Prod.mk.injEq] at splits
      exact ofStretch _ splits.2
    · split at splits
      · simp only [Option.some.injEq, Prod.mk.injEq] at splits
        have whole := enclosed_append c rest
        rw [splits.2] at whole
        refine ⟨?_, whole⟩
        rintro rfl
        have same := congrArg Prod.fst splits.2
        unfold enclosed at same
        split at same <;> simp at same
      · split at splits
        · simp only [Option.some.injEq, Prod.mk.injEq] at splits
          exact ofStretch _ splits.2
        · split at splits
          · simp only [Option.some.injEq, Prod.mk.injEq] at splits
            exact ofStretch _ splits.2
          · simp only [Option.map_eq_some_iff, Prod.mk.injEq] at splits
            obtain ⟨_, _, _, rfl, rfl⟩ := splits
            simp

end Lexicon

/-- A source that is being split. -/
structure Lexer where
  lexicon : Lexicon
  /-- What has not been split yet. -/
  rest : List Char
  /-- The offset of the next byte. -/
  position : Nat
  /-- How many `[` are open. -/
  depth : Nat
  failed : Bool

namespace Lexer

def new (lexicon : Lexicon) (source : String) : Lexer :=
  ⟨lexicon, source.toList, 0, 0, false⟩

/-- How many `[` are open after a token, if a `]` closes one. -/
def depthAfter? (depth : Nat) : TokenKind → Option Nat
  | .openBracket => some (depth + 1)
  | .closeBracket => if depth = 0 then none else some (depth - 1)
  | _ => some depth

/-- The next token, or the fault that takes its place. -/
def read (x : Lexer) (c : Char) (rest : List Char) : Except Fault Token × Lexer :=
  match x.lexicon.split? c rest with
  | none => (.error (.unrecognizedCharacter c x.position), { x with failed := true })
  | some (kind, taken, after) =>
    match depthAfter? x.depth kind with
    | none => (.error (.mismatchedBracket x.position), { x with failed := true })
    | some depth =>
      let token : Token := ⟨kind, String.ofList taken, x.position⟩
      (.ok token, { x with rest := after, position := token.stop, depth := depth })

theorem read_error {x y : Lexer} {c : Char} {rest : List Char} {fault : Fault}
    (failure : x.read c rest = (.error fault, y)) :
    fault.position? = some x.position ∧ y = { x with failed := true } := by
  unfold read at failure
  split at failure
  · simp only [Prod.mk.injEq, Except.error.injEq] at failure
    obtain ⟨rfl, rfl⟩ := failure
    exact ⟨rfl, rfl⟩
  · split at failure
    · simp only [Prod.mk.injEq, Except.error.injEq] at failure
      obtain ⟨rfl, rfl⟩ := failure
      exact ⟨rfl, rfl⟩
    · simp at failure

/-- The next token or fault, and nothing after a fault or at the end of the source. -/
def next (x : Lexer) : Option (Except Fault Token) × Lexer :=
  if x.failed then (none, x)
  else match x.rest with
    | [] => (none, x)
    | c :: rest =>
      let (item, y) := x.read c rest
      (some item, y)

/-- At least as many as the tokens and faults that may still come. -/
def size (x : Lexer) : Nat :=
  x.rest.length + if x.failed then 0 else 1

theorem size_read (x : Lexer) {c : Char} {rest : List Char} (running : x.failed = false)
    (front : x.rest = c :: rest) : (x.read c rest).2.size < x.size := by
  unfold read
  split
  · simp [size, running]
  · next kind taken after found =>
    have ⟨nonempty, whole⟩ := Lexicon.split?_append found
    have positive := List.length_pos_iff.2 nonempty
    have total := congrArg List.length whole
    simp only [List.length_append] at total
    split
    · simp [size, running]
    · simp only [size, running, front, ← total]
      omega

theorem size_next {x : Lexer} {item : Except Fault Token} (yielded : x.next.1 = some item) :
    x.next.2.size < x.size := by
  unfold next at yielded ⊢
  split at yielded
  · simp at yielded
  · next running =>
    rw [if_neg running]
    split at yielded
    · simp at yielded
    · next c rest front => exact size_read x (by simpa using running) front

end Lexer

instance : Source Lexer (Except Fault Token) where
  pull := Lexer.next
  size := Lexer.size
  size_pull := Lexer.size_next

end Reckoner
