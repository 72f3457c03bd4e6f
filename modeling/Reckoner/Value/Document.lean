import Reckoner.Value.Text
import Reckoner.Json.Printer

set_option autoImplicit false

namespace Reckoner.Value

variable {φ : Type}

mutual

def toJson : Value φ → Json
  | missing => .null
  | number x => .ofFloat x
  | text s => .string s
  | bool b => .bool b
  | list items => .array (toJsons items)
  | callable c => .string (callableText c)

def toJsons : List (Value φ) → List Json
  | [] => []
  | v :: rest => toJson v :: toJsons rest

end

mutual

def ofJson : Json → Except Fault (Value φ)
  | .null => .ok missing
  | .bool b => .ok (bool b)
  | .number n => .ok (number n.toFloat)
  | .string s => .ok (text s)
  | .array items => (ofJsons items).map list
  | .object _ => .error (.typeMismatch "JSON objects have no Flowo value")

def ofJsons : List Json → Except Fault (List (Value φ))
  | [] => .ok []
  | j :: rest => do
    let v ← ofJson j
    let vs ← ofJsons rest
    return v :: vs

end

end Reckoner.Value
