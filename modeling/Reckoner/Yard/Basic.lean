import Reckoner.Fault
import Reckoner.Instruction.Basic
import Reckoner.Token.Basic
import Reckoner.Yard.Precedence

set_option autoImplicit false

/-!
The shunting yard: operators wait on a stack until their operands are complete.

Values go straight into the program. A binary operator sends at most the one operator above it on
its way, and a closing delimiter all operators down to its opener.
-/

namespace Reckoner

/-- What waits in the yard. The openers keep where they stand in the source. -/
inductive Yard.Entry where
  | operator (symbol : String) (arity : Nat)
  /-- A `(` around an expression. -/
  | group (start : Nat)
  /-- A `(` after a callee; one more than the commas so far that separate its operands. -/
  | call (start : Nat) (count : Nat)
  /-- A `[`; one more than the commas so far that separate its items. -/
  | array (start : Nat) (count : Nat)
deriving DecidableEq, Repr

structure Yard where
  /-- What waits, the latest first. -/
  stack : List Yard.Entry
  /-- The kind of the latest token that was not blank. -/
  last : Option TokenKind
deriving DecidableEq, Repr

namespace Yard

def empty : Yard := ⟨[], none⟩

/-- Whether the latest token ended an operand: an operator then has two, and a `(` calls. -/
def afterOperand (y : Yard) : Bool :=
  y.last.any TokenKind.endsOperand

/-- The operators above the innermost opener as instructions, the latest first, and the stack from
the opener on. -/
def flush : List Entry → Program × List Entry
  | .operator symbol arity :: rest =>
    let (program, stack) := flush rest
    (.apply symbol arity :: program, stack)
  | stack => ([], stack)

/-- Whether a comma separates: whether the innermost opener is a call or an array. -/
def separates : List Entry → Bool
  | [] => false
  | .operator _ _ :: rest => separates rest
  | .group _ :: _ => false
  | .call _ _ :: _ => true
  | .array _ _ :: _ => true

/-- Counts one more operand or item of the innermost opener. -/
def countOne : List Entry → List Entry
  | .call start count :: rest => .call start (count + 1) :: rest
  | .array start count :: rest => .array start (count + 1) :: rest
  | stack => stack

/-- What a token did: the instructions it sent on their way, and the yard after it or the fault it
raised. -/
structure Step where
  program : Program
  outcome : Except Fault Yard

def proceed (kind : TokenKind) (program : Program) (stack : List Entry) : Step :=
  ⟨program, .ok ⟨stack, some kind⟩⟩

/-- A binary operator: the operator above it is applied first if it binds as tightly. -/
def placeBinary (p : Precedence) (symbol : String) : List Entry → Step
  | .operator waiting arity :: rest =>
    if p.goesFirst waiting symbol then
      proceed .operator [.apply waiting arity] (.operator symbol 2 :: rest)
    else
      proceed .operator [] (.operator symbol 2 :: .operator waiting arity :: rest)
  | stack => proceed .operator [] (.operator symbol 2 :: stack)

def acceptOperator (p : Precedence) (y : Yard) (symbol : String) : Step :=
  if symbol = "," ∧ separates y.stack then
    let (program, stack) := flush y.stack
    proceed .operator program (countOne stack)
  else if y.afterOperand then placeBinary p symbol y.stack
  else proceed .operator [] (.operator symbol 1 :: y.stack)

def closeParen (y : Yard) (position : Nat) : Step :=
  let (program, stack) := flush y.stack
  match stack with
  | .group _ :: rest => proceed .closeParen program rest
  | .call _ count :: rest =>
    let arity := if y.last = some .openParen then 0 else count
    proceed .closeParen (program ++ [.call arity]) rest
  | _ => ⟨program, .error (.unmatchedParen position)⟩

def closeBracket (y : Yard) (position : Nat) : Step :=
  let (program, stack) := flush y.stack
  match stack with
  | .array _ count :: rest =>
    let items := if y.last = some .openBracket then 0 else count
    proceed .closeBracket (program ++ [.collect items]) rest
  | .group start :: _ => ⟨program, .error (.unclosedDelimiter start)⟩
  | .call start _ :: _ => ⟨program, .error (.unclosedDelimiter start)⟩
  | _ => ⟨program, .error (.mismatchedBracket position)⟩

def accept (p : Precedence) (y : Yard) (t : Token) : Step :=
  match t.kind with
  | .whitespace => ⟨[], .ok y⟩
  | .number => proceed .number [.push (.ofNumeral t.raw)] y.stack
  | .string => proceed .string [.push (.ofEnclosed t.raw)] y.stack
  | .word => proceed .word [.load t.raw] y.stack
  | .operator => acceptOperator p y t.raw
  | .openParen =>
    let opener : Entry := if y.afterOperand then .call t.start 1 else .group t.start
    proceed .openParen [] (opener :: y.stack)
  | .closeParen => closeParen y t.start
  | .openBracket => proceed .openBracket [] (.array t.start 1 :: y.stack)
  | .closeBracket => closeBracket y t.start

/-- At the end the operators go on their way, down to an opener that nothing closed. -/
def finish (y : Yard) : Program × Option Fault :=
  let (program, stack) := flush y.stack
  match stack with
  | .group start :: _ => (program, some (.unclosedDelimiter start))
  | .call start _ :: _ => (program, some (.unclosedDelimiter start))
  | .array start _ :: _ => (program, some (.unclosedDelimiter start))
  | _ => (program, none)

/-- What the end leaves, or a closing delimiter that finds no opener of its own: the operators are
gone, and so is the opener under them. -/
def unwind (y : Yard) : Yard :=
  { y with stack := (flush y.stack).2.tail }

def run (p : Precedence) (y : Yard) : List (Except Fault Token) → Program × Option Fault
  | [] => y.finish
  | .error fault :: _ => ([], some fault)
  | .ok token :: rest =>
    match y.accept p token with
    | ⟨program, .error fault⟩ => (program, some fault)
    | ⟨program, .ok y⟩ =>
      let (later, fault) := y.run p rest
      (program ++ later, fault)

end Yard

end Reckoner
