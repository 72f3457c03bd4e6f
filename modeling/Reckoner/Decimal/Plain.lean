import Reckoner.Decimal.Shortest

set_option autoImplicit false

namespace Reckoner.Decimal

/-- Whether the sign bit is set; a minus zero counts. -/
def isNegative (x : Float) : Bool :=
  signWeight ≤ x.toBits.toNat

def size (x : Float) : Float :=
  if isNegative x then -x else x

def withSign (x : Float) (written : List Char) : List Char :=
  if isNegative x then '-' :: written else written

def positionalReadsBack (x : Float) (d : Decimal) : Bool :=
  (parse? d.positional).any fun r => r.toFloat == x

def plain (x : Float) : List Char :=
  withSign x <|
    if x == 0 then ['0'] else (shortest .up (positionalReadsBack (size x)) (size x)).positional

end Reckoner.Decimal
