set_option autoImplicit false

namespace Reckoner

/-- The number `coefficient * 10 ^ exponent`. -/
structure Decimal where
  coefficient : Nat
  exponent : Int
deriving DecidableEq, Repr

namespace Decimal

def infinity : Float := 1 / 0

/-- What stands for a text that is no number: NaN. -/
def noNumber : Float := 0 / 0

/-- The nearest double; a tie goes to the even mantissa, and what lies beyond the range is infinite. -/
def toFloat (d : Decimal) : Float :=
  .ofModel (.ofScientific d.coefficient d.exponent)

def digits (d : Decimal) : List Char :=
  Nat.toDigits 10 d.coefficient

theorem digits_ne_nil (d : Decimal) : d.digits ≠ [] :=
  Nat.toDigits_ne_nil

/-- How many places the first digit stands before the point; at most zero for a number below one. -/
def magnitude (d : Decimal) : Int :=
  d.digits.length + d.exponent

/-- Every digit in its place: zeros fill the gap to the point, and no exponent is written. -/
def positional (d : Decimal) : List Char :=
  let ds := d.digits
  if 0 ≤ d.exponent then
    ds ++ List.replicate d.exponent.toNat '0'
  else
    let places := (-d.exponent).toNat
    if places < ds.length then
      ds.take (ds.length - places) ++ '.' :: ds.drop (ds.length - places)
    else
      '0' :: '.' :: (List.replicate (places - ds.length) '0' ++ ds)

def scientific (d : Decimal) : List Char :=
  let power := d.magnitude - 1
  let mantissa :=
    match d.digits with
    | [] => []
    | [c] => [c]
    | c :: rest => c :: '.' :: rest
  mantissa ++ 'e' :: (if power < 0 then '-' else '+') :: Nat.toDigits 10 power.natAbs

end Decimal

end Reckoner
