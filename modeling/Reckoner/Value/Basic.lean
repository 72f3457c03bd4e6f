import Reckoner.Fault

set_option autoImplicit false

namespace Reckoner

/-- Which callable a value is: one that was there before the run, or the n-th made during it. -/
inductive Identity where
  | given (n : Nat)
  | made (n : Nat)
deriving DecidableEq, Repr

structure Callable (φ : Type) where
  name : String
  identity : Identity
  code : φ

inductive Value (φ : Type) where
  /-- The worth of a name that nothing is bound to. -/
  | missing
  | number (x : Float)
  | text (s : String)
  | bool (b : Bool)
  | list (items : List (Value φ))
  | callable (c : Callable φ)

namespace Value

variable {φ : Type}

instance : Inhabited (Value φ) := ⟨missing⟩

def kind : Value φ → Kind
  | missing => .missing
  | number _ => .number
  | text _ => .text
  | bool _ => .bool
  | list _ => .list
  | callable _ => .callable

/-- False, zero, NaN, the empty text and what is missing count as false, all else as true. -/
def isTruthy : Value φ → Bool
  | missing => false
  | number x => x != 0 && !x.isNaN
  | text s => !s.isEmpty
  | bool b => b
  | list _ => true
  | callable _ => true

def isMissing : Value φ → Bool
  | missing => true
  | _ => false

def number? : Value φ → Option Float
  | number x => some x
  | _ => none

def text? : Value φ → Option String
  | text s => some s
  | _ => none

def bool? : Value φ → Option Bool
  | bool b => some b
  | _ => none

def list? : Value φ → Option (List (Value φ))
  | list items => some items
  | _ => none

def callable? : Value φ → Option (Callable φ)
  | callable c => some c
  | _ => none

/-- The number that an integer is; every 32-bit integer is a double. -/
def ofInt (n : Int) : Value φ :=
  number (Float.ofInt n)

end Value

end Reckoner
