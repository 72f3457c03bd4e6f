import Reckoner.Value.Text
import Reckoner.Text.Blank

set_option autoImplicit false

namespace Reckoner

variable {φ : Type}

instance : BEq (Callable φ) := ⟨fun a b => a.identity == b.identity⟩

namespace Value

mutual

/-- Equality within one kind. -/
def strictlyEqual : Value φ → Value φ → Bool
  | missing, missing => true
  | number x, number y => x == y
  | text s, text t => s == t
  | bool a, bool b => a == b
  | list xs, list ys => allStrictlyEqual xs ys
  | callable c, callable d => c == d
  | _, _ => false

def allStrictlyEqual : List (Value φ) → List (Value φ) → Bool
  | [], [] => true
  | x :: xs, y :: ys => strictlyEqual x y && allStrictlyEqual xs ys
  | _, _ => false

end

instance : BEq (Value φ) := ⟨strictlyEqual⟩

/-- Equality within one kind where NaN matches NaN, if it is not inside a list. -/
def isSame (a b : Value φ) : Bool :=
  match a, b with
  | number x, number y => x == y || (x.isNaN && y.isNaN)
  | a, b => a == b

/-- The number that a text stands for: blank text is zero, a signed numeral or `Infinity` is read,
and all else is NaN. -/
def textNumber (s : String) : Float :=
  match Text.trim s.toList with
  | [] => 0
  | c :: cs =>
    let (negative, body) := Decimal.sign (c :: cs)
    if body = "Infinity".toList then Decimal.signed negative Decimal.infinity
    else match Decimal.parse? body with
      | some d => Decimal.signed negative d.toFloat
      | none => Decimal.noNumber

def looseNumber? : Value φ → Option Float
  | number x => some x
  | bool b => some (if b then 1 else 0)
  | text s => some (textNumber s)
  | _ => none

/-- Whether both count as numbers, and as the same one. -/
def numericallyEqual (a b : Value φ) : Bool :=
  match looseNumber? a, looseNumber? b with
  | some x, some y => x == y
  | _, _ => false

/-- A text against a value that is no list: texts by their characters, others as numbers. -/
def textEqual (s : String) : Value φ → Bool
  | text t => s == t
  | v => numericallyEqual (text s) v

mutual

/-- Equality across kinds: what is missing equals only itself; lists are compared item by item; a
list against a number, a text or a truth value is compared as the text of its items; and all else
but two texts is compared as numbers. -/
def looselyEqual : Value φ → Value φ → Bool
  | missing, missing => true
  | missing, _ => false
  | _, missing => false
  | text s, text t => s == t
  | list xs, list ys => allLooselyEqual xs ys
  | callable c, callable d => c == d
  | list _, callable _ => false
  | callable _, list _ => false
  | list xs, b => textEqual (commaText xs) b
  | a, list ys => textEqual (commaText ys) a
  | a, b => numericallyEqual a b

def allLooselyEqual : List (Value φ) → List (Value φ) → Bool
  | [], [] => true
  | x :: xs, y :: ys => looselyEqual x y && allLooselyEqual xs ys
  | _, _ => false

end

end Value

end Reckoner
