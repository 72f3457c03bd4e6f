import Reckoner.Decimal.Basic

set_option autoImplicit false

namespace Reckoner.Decimal

def natOfDigits (ds : List Char) : Nat :=
  Nat.ofDigitChars 10 ds 0

/-- The digits that a text begins with, and the rest. -/
def digitRun (cs : List Char) : List Char × List Char :=
  (cs.takeWhile Char.isDigit, cs.dropWhile Char.isDigit)

@[simp] theorem natOfDigits_digits (d : Decimal) : natOfDigits d.digits = d.coefficient :=
  Nat.ofDigitChars_ten_toDigits

theorem digitRun_append (cs : List Char) : (digitRun cs).1 ++ (digitRun cs).2 = cs :=
  List.takeWhile_append_dropWhile

theorem isDigit_of_mem_digitRun {cs : List Char} {c : Char} (member : c ∈ (digitRun cs).1) :
    c.isDigit :=
  List.all_eq_true.1 List.all_takeWhile c member

/-- A run of digits ends where the text does or before a character that is no digit. -/
theorem digitRun_of_append {ds rest : List Char} (digits : ∀ c ∈ ds, c.isDigit)
    (ended : ∀ c, rest.head? = some c → c.isDigit = false) :
    digitRun (ds ++ rest) = (ds, rest) := by
  have noneTaken : rest.takeWhile Char.isDigit = [] := by
    cases rest with
    | nil => rfl
    | cons c tail => simp [ended c rfl]
  have noneDropped : rest.dropWhile Char.isDigit = rest := by
    cases rest with
    | nil => rfl
    | cons c tail => simp [ended c rfl]
  rw [digitRun, List.takeWhile_append_of_pos digits, List.dropWhile_append_of_pos digits,
    noneTaken, noneDropped, List.append_nil]

/-- A sign at the front (true for minus), and the rest. -/
def sign : List Char → Bool × List Char
  | '-' :: cs => (true, cs)
  | '+' :: cs => (false, cs)
  | cs => (false, cs)

/-- The digits after a point. The point belongs to the numeral if a digit stands on either side. -/
def fraction (whole : List Char) : List Char → List Char × List Char
  | '.' :: cs =>
    let (ds, rest) := digitRun cs
    if whole.isEmpty && ds.isEmpty then ([], '.' :: cs) else (ds, rest)
  | cs => ([], cs)

/-- The power of ten, if a complete one follows; an `e` without digits is left in the rest. -/
def power : List Char → Int × List Char
  | [] => (0, [])
  | c :: cs =>
    if c = 'e' ∨ c = 'E' then
      let (negative, body) := sign cs
      match digitRun body with
      | ([], _) => (0, c :: cs)
      | (ds, rest) => (if negative then -(natOfDigits ds : Int) else natOfDigits ds, rest)
    else (0, c :: cs)

/-- A numeral without a sign: the digits before and after the point, and the power of ten. -/
structure Numeral where
  whole : List Char
  part : List Char
  scale : Int
deriving DecidableEq, Repr

def Numeral.value (n : Numeral) : Decimal :=
  ⟨natOfDigits (n.whole ++ n.part), n.scale - n.part.length⟩

/-- The longest numeral without a sign that a text begins with, and the rest. -/
def scan (cs : List Char) : Option (Numeral × List Char) :=
  let (whole, afterWhole) := digitRun cs
  let (part, afterPart) := fraction whole afterWhole
  if whole.isEmpty && part.isEmpty then
    none
  else
    let (scale, rest) := power afterPart
    some (⟨whole, part, scale⟩, rest)

def parse? (cs : List Char) : Option Decimal :=
  match scan cs with
  | some (n, []) => some n.value
  | _ => none

def signed (negative : Bool) (size : Float) : Float :=
  if negative then -size else size

def leading? (cs : List Char) : Option Float :=
  let (negative, body) := sign cs
  (scan body).map fun (n, _) => signed negative n.value.toFloat

end Reckoner.Decimal
