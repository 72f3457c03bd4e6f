import Reckoner.Proofs.Yard.Delimiters
import Reckoner.Proofs.Yard.Feed

set_option autoImplicit false

namespace Reckoner

namespace Yard

/-- What waits, without what it has counted. -/
inductive Marker where
  | operator (symbol : String) (arity : Nat)
  | group (start : Nat)
  | call (start : Nat)
  | array (start : Nat)
deriving DecidableEq, Repr

/-- Whether there is a counter for it. -/
def Marker.isCounted : Marker → Bool
  | operator _ _ => false
  | group _ => false
  | call _ => true
  | array _ => true

structure Split where
  /-- What waits, the latest first. -/
  markers : List Marker
  /-- What the open calls and arrays have counted, the innermost first. -/
  counters : List Nat
  last : Option TokenKind
deriving DecidableEq, Repr

namespace Split

structure Step where
  program : Program
  outcome : Except Fault Split

def empty : Split := ⟨[], [], none⟩

def afterOperand (s : Split) : Bool :=
  s.last.any TokenKind.endsOperand

def flush : List Marker → Program × List Marker
  | .operator symbol arity :: rest =>
    let (program, markers) := flush rest
    (.apply symbol arity :: program, markers)
  | markers => ([], markers)

def separates : List Marker → Bool
  | [] => false
  | .operator _ _ :: rest => separates rest
  | .group _ :: _ => false
  | .call _ :: _ => true
  | .array _ :: _ => true

def countOne : List Nat → List Nat
  | count :: rest => (count + 1) :: rest
  | [] => []

def proceed (kind : TokenKind) (program : Program) (markers : List Marker) (counters : List Nat) :
    Step :=
  ⟨program, .ok ⟨markers, counters, some kind⟩⟩

def placeBinary (p : Precedence) (symbol : String) (counters : List Nat) : List Marker → Step
  | .operator waiting arity :: rest =>
    if p.goesFirst waiting symbol then
      proceed .operator [.apply waiting arity] (.operator symbol 2 :: rest) counters
    else proceed .operator [] (.operator symbol 2 :: .operator waiting arity :: rest) counters
  | markers => proceed .operator [] (.operator symbol 2 :: markers) counters

def acceptOperator (p : Precedence) (s : Split) (symbol : String) : Step :=
  if symbol = "," ∧ separates s.markers then
    let (program, markers) := flush s.markers
    proceed .operator program markers (countOne s.counters)
  else if s.afterOperand then placeBinary p symbol s.counters s.markers
  else proceed .operator [] (.operator symbol 1 :: s.markers) s.counters

def closeParen (fallback : Nat) (s : Split) (position : Nat) : Step :=
  let (program, markers) := flush s.markers
  match markers with
  | .group _ :: rest => proceed .closeParen program rest s.counters
  | .call _ :: rest =>
    let count := s.counters.head?.getD fallback
    let arity := if s.last = some .openParen then 0 else count
    proceed .closeParen (program ++ [.call arity]) rest s.counters.tail
  | _ => ⟨program, .error (.unmatchedParen position)⟩

def closeBracket (fallback : Nat) (s : Split) (position : Nat) : Step :=
  let (program, markers) := flush s.markers
  match markers with
  | .array _ :: rest =>
    let count := s.counters.head?.getD fallback
    let items := if s.last = some .openBracket then 0 else count
    proceed .closeBracket (program ++ [.collect items]) rest s.counters.tail
  | .group start :: _ => ⟨program, .error (.unclosedDelimiter start)⟩
  | .call start :: _ => ⟨program, .error (.unclosedDelimiter start)⟩
  | _ => ⟨program, .error (.mismatchedBracket position)⟩

/-- Takes one token in. A closer that finds no counter takes the fallback. -/
def accept (fallback : Nat) (p : Precedence) (s : Split) (t : Token) : Step :=
  match t.kind with
  | .whitespace => ⟨[], .ok s⟩
  | .number => proceed .number [.push (.ofNumeral t.raw)] s.markers s.counters
  | .string => proceed .string [.push (.ofEnclosed t.raw)] s.markers s.counters
  | .word => proceed .word [.load t.raw] s.markers s.counters
  | .operator => acceptOperator p s t.raw
  | .openParen =>
    if s.afterOperand then proceed .openParen [] (.call t.start :: s.markers) (1 :: s.counters)
    else proceed .openParen [] (.group t.start :: s.markers) s.counters
  | .closeParen => closeParen fallback s t.start
  | .openBracket => proceed .openBracket [] (.array t.start :: s.markers) (1 :: s.counters)
  | .closeBracket => closeBracket fallback s t.start

def feed (fallback : Nat) (p : Precedence) (s : Split) : List Token → Step
  | [] => ⟨[], .ok s⟩
  | t :: rest =>
    match s.accept fallback p t with
    | ⟨program, .error fault⟩ => ⟨program, .error fault⟩
    | ⟨program, .ok next⟩ =>
      ⟨program ++ (next.feed fallback p rest).program, (next.feed fallback p rest).outcome⟩

end Split

def Entry.marker : Entry → Marker
  | .operator symbol arity => .operator symbol arity
  | .group start => .group start
  | .call start _ => .call start
  | .array start _ => .array start

def Entry.counter? : Entry → Option Nat
  | .operator _ _ => none
  | .group _ => none
  | .call _ count => some count
  | .array _ count => some count

def markers (stack : List Entry) : List Marker :=
  stack.map Entry.marker

def counters (stack : List Entry) : List Nat :=
  stack.filterMap Entry.counter?

/-- The yard with its one stack split in two. -/
def split (y : Yard) : Split :=
  ⟨markers y.stack, counters y.stack, y.last⟩

def Step.split (s : Step) : Split.Step :=
  ⟨s.program, s.outcome.map Yard.split⟩

@[simp] theorem split_markers (y : Yard) : y.split.markers = markers y.stack := rfl

@[simp] theorem split_counters (y : Yard) : y.split.counters = counters y.stack := rfl

@[simp] theorem split_last (y : Yard) : y.split.last = y.last := rfl

theorem split_flush (stack : List Entry) :
    Split.flush (markers stack) = ((flush stack).1, markers (flush stack).2) := by
  induction stack with
  | nil => rfl
  | cons entry rest ih =>
    cases entry with
    | operator symbol arity =>
      change Split.flush (.operator symbol arity :: markers rest) = _
      simp only [Split.flush, ih]
      rfl
    | group start => rfl
    | call start count => rfl
    | array start count => rfl

@[simp] theorem counters_flush (stack : List Entry) : counters (flush stack).2 = counters stack :=
  filterMap_flush (fun _ _ => rfl) stack

theorem split_separates (stack : List Entry) :
    Split.separates (markers stack) = separates stack := by
  induction stack with
  | nil => rfl
  | cons entry rest ih =>
    cases entry with
    | operator symbol arity => exact ih
    | group start => rfl
    | call start count => rfl
    | array start count => rfl

@[simp] theorem markers_countOne (stack : List Entry) :
    markers (countOne stack) = markers stack := by
  unfold countOne
  split <;> rfl

/-- Where a comma separates, what is on top of the flushed stack has the counter on top. -/
theorem counters_countOne_flush {stack : List Entry} (counted : separates stack = true) :
    counters (countOne (flush stack).2) = Split.countOne (counters stack) := by
  induction stack with
  | nil => cases counted
  | cons entry rest ih =>
    cases entry with
    | operator symbol arity => exact ih counted
    | group start => cases counted
    | call start count => rfl
    | array start count => rfl

theorem split_placeBinary (p : Precedence) (symbol : String) (stack : List Entry) :
    Split.placeBinary p symbol (counters stack) (markers stack) =
      (placeBinary p symbol stack).split := by
  cases stack with
  | nil => rfl
  | cons entry rest =>
    cases entry with
    | operator waiting arity =>
      change Split.placeBinary p symbol (counters rest)
        (.operator waiting arity :: markers rest) = _
      simp only [Split.placeBinary, placeBinary]
      split <;> rfl
    | group start => rfl
    | call start count => rfl
    | array start count => rfl

theorem split_acceptOperator (p : Precedence) (y : Yard) (symbol : String) :
    y.split.acceptOperator p symbol = (acceptOperator p y symbol).split := by
  simp only [Split.acceptOperator, acceptOperator, split_markers, split_counters,
    split_separates]
  by_cases counted : symbol = "," ∧ separates y.stack = true
  · rw [if_pos counted, if_pos counted, split_flush, ← counters_countOne_flush counted.2,
      ← markers_countOne]
    rfl
  · rw [if_neg counted, if_neg counted]
    by_cases after : y.afterOperand = true
    · rw [if_pos after, if_pos (show y.split.afterOperand = true from after)]
      exact split_placeBinary p symbol y.stack
    · rw [if_neg after, if_neg (show ¬ y.split.afterOperand = true from after)]
      rfl

theorem split_closeParen (fallback : Nat) (y : Yard) (position : Nat) :
    y.split.closeParen fallback position = (closeParen y position).split := by
  -- A flush takes no counter, so the front of the flushed stack has the one on top.
  have kept := counters_flush y.stack
  simp only [Split.closeParen, closeParen, split_markers, split_counters, split_last, split_flush,
    ← kept]
  rcases flush_cases y.stack with front | ⟨start, rest, front⟩ | ⟨start, count, rest, front⟩ |
      ⟨start, count, rest, front⟩ <;> rw [front] <;> rfl

theorem split_closeBracket (fallback : Nat) (y : Yard) (position : Nat) :
    y.split.closeBracket fallback position = (closeBracket y position).split := by
  have kept := counters_flush y.stack
  simp only [Split.closeBracket, closeBracket, split_markers, split_counters, split_last,
    split_flush, ← kept]
  rcases flush_cases y.stack with front | ⟨start, rest, front⟩ | ⟨start, count, rest, front⟩ |
      ⟨start, count, rest, front⟩ <;> rw [front] <;> rfl

/-- A token does the same to both, whatever the fallback. -/
theorem split_accept (fallback : Nat) (p : Precedence) (y : Yard) (t : Token) :
    y.split.accept fallback p t = (y.accept p t).split := by
  unfold Split.accept accept
  cases t.kind with
  | operator => exact split_acceptOperator p y t.raw
  | openParen =>
    simp only
    by_cases after : y.afterOperand = true
    · rw [if_pos after, if_pos (show y.split.afterOperand = true from after)]
      rfl
    · rw [if_neg after, if_neg (show ¬ y.split.afterOperand = true from after)]
      rfl
  | closeParen => exact split_closeParen fallback y t.start
  | closeBracket => exact split_closeBracket fallback y t.start
  | _ => rfl

theorem split_feed (fallback : Nat) (p : Precedence) (y : Yard) (tokens : List Token) :
    y.split.feed fallback p tokens = (y.feed p tokens).split := by
  induction tokens generalizing y with
  | nil => rfl
  | cons t rest ih =>
    have step := split_accept fallback p y t
    simp only [Split.feed, feed, step]
    obtain ⟨program, outcome⟩ := y.accept p t
    cases outcome with
    | error fault => rfl
    | ok next =>
      simp only [Step.split, Except.map, ih]

end Yard

end Reckoner
