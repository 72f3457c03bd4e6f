import Reckoner.Decimal.Basic

set_option autoImplicit false

namespace Reckoner

/-- A number in a document: an integer that fits a 64-bit word with or without a sign, or any other
number. A minus zero is no integer. -/
inductive Json.Number where
  | whole (n : Int)
  | real (x : Float)
deriving DecidableEq

inductive Json where
  | null
  | bool (b : Bool)
  | number (n : Json.Number)
  | string (s : String)
  | array (items : List Json)
  | object (fields : List (String × Json))

namespace Json

def Number.toFloat : Number → Float
  | whole (.ofNat n) => (Decimal.mk n 0).toFloat
  | whole (.negSucc n) => -(Decimal.mk (n + 1) 0).toFloat
  | real x => x

/-- A double as a document; those that are no number of JSON become `null`. -/
def ofFloat (x : Float) : Json :=
  if x.isFinite then number (.real x) else null

def ofNat (n : Nat) : Json :=
  number (.whole (.ofNat n))

/-- What stands under a name that occurs once. -/
def only? (fields : List (String × Json)) (name : String) : Option Json :=
  match fields.filter (·.1 == name) with
  | [(_, value)] => some value
  | _ => none

def string? : Json → Option String
  | string s => some s
  | _ => none

/-- A count: a natural below `2 ^ 64`, written without sign, point or exponent. -/
def count? : Json → Option Nat
  | number (.whole (.ofNat n)) => some n
  | _ => none

def float? : Json → Option Float
  | number n => some n.toFloat
  | _ => none

def array? : Json → Option (List Json)
  | array items => some items
  | _ => none

end Json

end Reckoner
