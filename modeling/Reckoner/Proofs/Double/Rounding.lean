import Reckoner.Proofs.Double.Packing

set_option autoImplicit false

namespace Reckoner.Double

open Float.Model (UnpackedFloat Format totalExponent)
open Float.Model.UnpackedFloat

section exact

variable {m : Nat}

theorem log2_shiftLeft (pos : 0 < m) (k : Nat) : (m <<< k).log2 = m.log2 + k := by
  induction k with
  | zero => rfl
  | succ k ih =>
    have solid : m <<< k ≠ 0 := by
      rw [Ne, Nat.shiftLeft_eq_zero_iff]
      omega
    rw [Nat.shiftLeft_succ, Nat.log2_two_mul solid, ih, Nat.add_assoc]

/-- Zeros at the end of a mantissa count like a higher exponent. -/
theorem totalExponent_shiftLeft (pos : 0 < m) (e : Int) (k : Nat) :
    totalExponent (m <<< k) (e - k) = totalExponent m e := by
  simp only [totalExponent, log2_shiftLeft pos]
  omega

/-- Shifting zeros out of a mantissa leaves nothing to round. -/
theorem shiftLeft_shiftRight_exact (m k : Nat) :
    ExtendedMantissa.ofMantissaAndAccuracy (m <<< k) .exact >>> k =
      ExtendedMantissa.ofMantissaAndAccuracy m .exact := by
  induction k generalizing m with
  | zero => rfl
  | succ k ih =>
    change ExtendedMantissa.shiftRightOne
      (ExtendedMantissa.ofMantissaAndAccuracy ((2 * m) <<< k) .exact >>> k) = _
    rw [ih]
    simp [ExtendedMantissa.shiftRightOne, ExtendedMantissa.ofMantissaAndAccuracy]

theorem shiftToTargetExponent_shiftLeft {spec : Format} {e : Int} (pos : 0 < m)
    (target : spec.targetExponent (totalExponent m e) = e) (k : Nat) :
    shiftToTargetExponent spec (m <<< k) (e - k) .exact =
      (ExtendedMantissa.ofMantissaAndAccuracy m .exact, e) := by
  have amount : (e - (e - k)).toNat = k := by omega
  have back : e - k + k = e := by omega
  simp only [shiftToTargetExponent, shiftToExponent, totalExponent_shiftLeft pos, target, amount,
    shiftLeft_shiftRight_exact, back]

/-- What has the exponent that the format asks for is rounded to itself, also if it is written with a
lower exponent. -/
theorem roundWithAccuracy_shiftLeft {spec : Format} {e : Int} (pos : 0 < m)
    (target : spec.targetExponent (totalExponent m e) = e) (s : Sign) (k : Nat) :
    roundWithAccuracy spec s (m <<< k) (e - k) .exact = .finite s m e pos := by
  have still := shiftToTargetExponent_shiftLeft pos target 0
  rw [Nat.shiftLeft_zero, Int.natCast_zero, Int.sub_zero] at still
  have solid : m ≠ 0 := by omega
  simp only [roundWithAccuracy, shiftToTargetExponent_shiftLeft pos target,
    ExtendedMantissa.ofMantissaAndAccuracy, ExtendedMantissa.roundedMantissa,
    ExtendedMantissa.accuracy, Accuracy.roundToNearestEven, still, solid, dite_false]

end exact

section number

theorem roundWithAccuracy_ne (spec : Format) (s : Sign) (m : Nat) (e : Int) (accuracy : Accuracy) :
    roundWithAccuracy spec s m e accuracy ≠ .notANumber := by
  unfold roundWithAccuracy
  simp only
  split <;> nofun

theorem ofScientific_ne (spec : Format) (m : Nat) (e : Int) :
    ofScientific spec m e ≠ .notANumber := by
  unfold ofScientific
  split
  · nofun
  · split
    · nofun
    · split
      · nofun
      · split <;> exact roundWithAccuracy_ne _ _ _ _ _

/-- What is no number has all bits of its exponent set, and some of its mantissa. -/
theorem fields_of_unpack {b : BitVec Format.binary64.numBits}
    (none : unpack .binary64 b = .notANumber) :
    (unpackExponent b).toNat = 2047 ∧ 0 < (unpackMantissa b).toNat := by
  have fields := fields_unpack b
  rw [none] at fields
  generalize (unpackExponent b).toNat = k at fields
  generalize (unpackMantissa b).toNat = n at fields
  cases fields with
  | notANumber payload => exact ⟨rfl, payload⟩

/-- Packing makes no number into what is none. -/
theorem unpack_pack_ne {u : UnpackedFloat} (number : u ≠ .notANumber) :
    unpack .binary64 (pack .binary64 u) ≠ .notANumber := by
  intro none
  obtain ⟨exponent, mantissa⟩ := fields_of_unpack none
  cases u with
  | notANumber => exact number rfl
  | infinity s => cases s <;> cases mantissa
  | zero s => cases s <;> cases exponent
  | finite s m e pos =>
    simp only [pack, packedInfinity] at exponent mantissa
    split at mantissa
    · next beyond =>
      rw [unpackMantissa_packComponents] at mantissa
      cases mantissa
    · next within =>
      rw [if_neg within] at exponent
      split at exponent
      · rw [unpackExponent_packComponents, BitVec.toNat_ofNat] at exponent
        change ¬ 2048 ≤ _ at within
        change _ % 2048 = 2047 at exponent
        omega
      · rw [unpackExponent_packComponents] at exponent
        cases exponent

theorem isNaN_toFloat (d : Decimal) : d.toFloat.isNaN = false := by
  have number : d.toFloat.toModel.unpack ≠ .notANumber :=
    unpack_pack_ne (ofScientific_ne .binary64 d.coefficient d.exponent)
  change d.toFloat.toModel.unpack.isNaN = false
  revert number
  cases d.toFloat.toModel.unpack with
  | notANumber => exact fun number => absurd rfl number
  | _ => exact fun _ => rfl

theorem isNaN_signed (negative : Bool) (x : Float) :
    (Decimal.signed negative x).isNaN = x.isNaN := by
  cases negative
  · rfl
  · exact isNaN_neg x

end number

end Reckoner.Double
