import Mathlib
import Reckoner.Decimal.Basic

set_option autoImplicit false

namespace Reckoner.Double

variable {x y : Float}

theorem isNaN_noNumber : Decimal.noNumber.isNaN := by decide +kernel

theorem beq_self (x : Float) : (x == x) = !x.isNaN := by
  rw [Bool.eq_iff_iff, Float.beq_self_iff, Float.isNaN_eq_decide_eq_nan, Bool.not_eq_true',
    decide_eq_false_iff_not]

theorem beq_of_isNaN (nan : x.isNaN) (y : Float) : (x == y) = false := by
  rw [Float.isNaN_eq_decide_eq_nan, decide_eq_true_eq] at nan
  rw [nan, Float.nan_beq_eq_false]

/-- Doubles that are equal as numbers are the same, the zeros aside. -/
theorem eq_of_beq_of_ne_zero (same : (x == y) = true) (apart : (x == 0) = false) : x = y := by
  have zeros : ((0 : Float) == 0) = true ∧ ((-0 : Float) == 0) = true := by decide +kernel
  obtain ⟨-, -, equal | ⟨rfl, -⟩ | ⟨rfl, -⟩⟩ := Float.beq_iff_ne_nan_and_eq.1 same
  · exact equal
  · rw [zeros.1] at apart
    cases apart
  · rw [zeros.2] at apart
    cases apart

theorem beq_self_ofBool (b : Bool) :
    ((if b then 1 else 0 : Float) == (if b then 1 else 0)) = true := by
  cases b <;> decide +kernel

end Reckoner.Double
