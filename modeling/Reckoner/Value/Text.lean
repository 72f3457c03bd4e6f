import Reckoner.Value.Basic
import Reckoner.Decimal.Plain

set_option autoImplicit false

namespace Reckoner.Value

variable {φ : Type}

/-- The text of a number. Both zeros are `0`, and no finite number has an exponent. -/
def numberText (x : Float) : String :=
  if x.isNaN then "NaN"
  else if x.isInf then (if x < 0 then "-Infinity" else "Infinity")
  else if x == 0 then "0"
  else String.ofList (Decimal.plain x)

def callableText (c : Callable φ) : String :=
  "<callable " ++ c.name ++ ">"

mutual

/-- The text of a value; text itself stands without quotes, also inside a list. -/
def display : Value φ → String
  | missing => "undefined"
  | number x => numberText x
  | text s => s
  | bool b => if b then "true" else "false"
  | list items => "[" ++ ", ".intercalate (displays items) ++ "]"
  | callable c => callableText c

def displays : List (Value φ) → List String
  | [] => []
  | v :: rest => display v :: displays rest

end

mutual

/-- The text of an item in a list that is compared with a text, a number or a truth value: what is
missing is empty, and an inner list gives its own items. -/
def itemText : Value φ → String
  | missing => ""
  | list items => ",".intercalate (itemTexts items)
  | number x => numberText x
  | text s => s
  | bool b => if b then "true" else "false"
  | callable c => callableText c

def itemTexts : List (Value φ) → List String
  | [] => []
  | v :: rest => itemText v :: itemTexts rest

end

@[simp] theorem itemTexts_eq_map (items : List (Value φ)) :
    itemTexts items = items.map itemText := by
  induction items with
  | nil => rfl
  | cons v rest ih => simp [itemTexts, ih]

def commaText (items : List (Value φ)) : String :=
  ",".intercalate (items.map itemText)

theorem itemText_list (items : List (Value φ)) : itemText (list items) = commaText items := by
  simp [itemText, commaText]

end Reckoner.Value
