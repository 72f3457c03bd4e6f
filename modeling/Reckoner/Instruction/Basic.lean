import Reckoner.Decimal.Numeral

set_option autoImplicit false

namespace Reckoner

inductive Literal where
  | number (x : Float)
  | text (s : String)
deriving DecidableEq

namespace Literal

/-- The numeral that a token begins with, and NaN if it begins with none. -/
def ofNumeral (raw : String) : Literal :=
  number ((Decimal.leading? raw.toList).getD Decimal.noNumber)

/-- The characters after the first one, without the last one if it is the same. -/
def ofEnclosed (raw : String) : Literal :=
  match raw.toList with
  | [] => text ""
  | delimiter :: body =>
    text (String.ofList (if body.getLast? = some delimiter then body.dropLast else body))

end Literal

inductive Instruction where
  /-- Puts a literal on the stack. -/
  | push (literal : Literal)
  /-- Puts the value bound to a name on the stack. -/
  | load (name : String)
  /-- Replaces the operands on the stack by what an operator makes of them. -/
  | apply (symbol : String) (arity : Nat)
  /-- Replaces the values on the stack by the list of them. -/
  | collect (count : Nat)
  /-- Replaces a callable and the operands above it by the outcome of the call. -/
  | call (arity : Nat)
deriving DecidableEq

abbrev Program := List Instruction

end Reckoner
