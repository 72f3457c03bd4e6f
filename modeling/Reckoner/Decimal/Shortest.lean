import Reckoner.Decimal.Numeral

set_option autoImplicit false

/-!
The shortest decimal for a double: the fewest digits that read back as the same double, and of two
decimals with that many digits the nearer one.

What reading back means is a parameter, because it depends on how the decimal is going to be
written; a format hands in its own writer and reader.
-/

namespace Reckoner.Decimal

/-- Which of two equally near decimals is taken. -/
inductive Tie where
  /-- The larger one. -/
  | up
  /-- The one whose last digit is even. -/
  | even
deriving DecidableEq, Repr

/-- The weight of the bit that stands for the sign. -/
def signWeight : Nat := 0x8000000000000000

/-- The weight of the mantissa bit that is not stored. -/
def hiddenBit : Nat := 0x10000000000000

/-- A positive double as `mantissa * 2 ^ exponent`. -/
def binary (x : Float) : Nat × Int :=
  let bits := x.toBits.toNat % signWeight
  let field := bits / hiddenBit
  let fraction := bits % hiddenBit
  if field = 0 then (fraction, -1074) else (fraction + hiddenBit, Int.ofNat field - 1075)

def exact (x : Float) : Decimal :=
  let (m, e) := binary x
  if 0 ≤ e then ⟨m * Nat.pow 2 e.toNat, 0⟩ else ⟨m * Nat.pow 5 (-e).toNat, e⟩

def ratio (x : Float) : Nat × Nat :=
  let (m, e) := binary x
  if 0 ≤ e then (m * Nat.pow 2 e.toNat, 1) else (m, Nat.pow 2 (-e).toNat)

def placesBefore (numerator denominator : Nat) : Int :=
  if denominator ≤ numerator then
    (Nat.toDigits 10 (numerator / denominator)).length
  else
    1 - ((Nat.toDigits 10 (denominator / numerator)).length : Int)

/-- A coefficient without the zeros at its end, which move into the exponent. -/
def trimZeros (d : Decimal) : Decimal :=
  if h : d.coefficient ≠ 0 ∧ d.coefficient % 10 = 0 then
    trimZeros ⟨d.coefficient / 10, d.exponent + 1⟩
  else d
termination_by d.coefficient
decreasing_by exact Nat.div_lt_self (Nat.pos_of_ne_zero h.1) (by decide)

/-- On the grid of multiples of `10 ^ step`, the neighbour of the fraction that reads back, and the
nearer one if both do. -/
def neighbour? (tie : Tie) (readsBack : Decimal → Bool) (numerator denominator : Nat) (step : Int) :
    Option Decimal :=
  let a := numerator * Nat.pow 10 (-step).toNat
  let b := denominator * Nat.pow 10 step.toNat
  let below := trimZeros ⟨a / b, step⟩
  let above := trimZeros ⟨a / b + 1, step⟩
  match readsBack below, readsBack above with
  | true, false => some below
  | false, true => some above
  | false, false => none
  | true, true =>
    let twice := 2 * (a % b)
    if twice < b then some below
    else if b < twice then some above
    else match tie with
      | .up => some above
      | .even => if a / b % 2 = 0 then some below else some above

theorem readsBack_of_neighbour? {tie : Tie} {readsBack : Decimal → Bool}
    {numerator denominator : Nat} {step : Int} {d : Decimal}
    (found : neighbour? tie readsBack numerator denominator step = some d) : readsBack d := by
  unfold neighbour? at found
  simp only at found
  split at found
  · next below _ =>
    cases found
    exact below
  · next _ above =>
    cases found
    exact above
  · cases found
  · next below above =>
    repeat' split at found
    all_goals cases found
    all_goals assumption

/-- The shortest decimal that reads back as the positive double `x`. -/
def shortest (tie : Tie) (readsBack : Decimal → Bool) (x : Float) : Decimal :=
  let (numerator, denominator) := ratio x
  let places := placesBefore numerator denominator
  let found := (List.range 17).findSome? fun n =>
    neighbour? tie readsBack numerator denominator (places - (Int.ofNat n + 1))
  found.getD (exact x)

/-- The shortest decimal reads back wherever the one with every digit does. -/
theorem readsBack_shortest (tie : Tie) {readsBack : Decimal → Bool} {x : Float}
    (exactly : readsBack (exact x)) : readsBack (shortest tie readsBack x) := by
  unfold shortest
  simp only
  rcases search : List.findSome? _ _ with _ | d
  · exact exactly
  · obtain ⟨n, _, found⟩ := List.exists_of_findSome?_eq_some search
    exact readsBack_of_neighbour? found

end Reckoner.Decimal
