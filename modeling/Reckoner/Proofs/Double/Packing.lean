import Mathlib
import Reckoner.Decimal.Plain

set_option autoImplicit false

namespace Reckoner.Double

open Float.Model (UnpackedFloat Format)
open Float.Model.UnpackedFloat
open Decimal (hiddenBit signWeight)

/-- What the fields of a double are worth. -/
inductive Fields (s : Sign) : Nat → Nat → UnpackedFloat → Prop
  | notANumber {n : Nat} (payload : 0 < n) : Fields s 2047 n .notANumber
  | infinity : Fields s 2047 0 (.infinity s)
  | zero : Fields s 0 0 (.zero s)
  /-- Without the hidden bit, at the lowest exponent. -/
  | subnormal {n : Nat} (pos : 0 < n) : Fields s 0 n (.finite s n (-1074) pos)
  | normal {k n : Nat} (start : 0 < k) (stop : k < 2047) (pos : 0 < hiddenBit + n) :
      Fields s k n (.finite s (hiddenBit + n) (k - 1075) pos)

/-- The same worth with the sign given; what is no number has none. -/
def turned (s : Sign) : UnpackedFloat → UnpackedFloat
  | .notANumber => .notANumber
  | .infinity _ => .infinity s
  | .zero _ => .zero s
  | .finite _ m e pos => .finite s m e pos

namespace Fields

variable {s : Sign} {k n : Nat} {u : UnpackedFloat}

theorem neg_eq (fields : Fields s k n u) : u.neg = turned (-s) u := by
  cases fields <;> rfl

end Fields

section fields

variable {b : BitVec Format.binary64.numBits}

theorem toNat_unpackMantissa : (unpackMantissa b).toNat = b.toNat % hiddenBit := by
  simp only [unpackMantissa, BitVec.extractLsb, BitVec.toNat_cast, BitVec.extractLsb'_toNat,
    Nat.shiftRight_zero]
  rfl

theorem toNat_unpackExponent : (unpackExponent b).toNat = b.toNat % signWeight / hiddenBit := by
  simp only [unpackExponent, BitVec.extractLsb, BitVec.toNat_cast, BitVec.extractLsb'_toNat,
    Nat.shiftRight_eq_div_pow]
  change b.toNat / 4503599627370496 % 2048 = b.toNat % 9223372036854775808 / 4503599627370496
  omega

theorem toNat_unpackSign : (unpackSign b).toNat = b.toNat / signWeight := by
  have bound : b.toNat < 18446744073709551616 := b.isLt
  simp only [unpackSign, BitVec.extractLsb, BitVec.toNat_cast, BitVec.extractLsb'_toNat,
    Nat.shiftRight_eq_div_pow]
  change b.toNat / 9223372036854775808 % 2 = b.toNat / 9223372036854775808
  omega

theorem toNat_one_append (m : BitVec Format.binary64.mantissaBitsWithoutImplicit) :
    (1#1 ++ m).toNat = hiddenBit + m.toNat := by
  rw [BitVec.toNat_append, ← Nat.shiftLeft_add_eq_or_of_lt m.isLt, Nat.shiftLeft_eq]
  rfl

theorem fields_unpack (b : BitVec Format.binary64.numBits) :
    Fields (Sign.ofBitVec (unpackSign b)) (unpackExponent b).toNat (unpackMantissa b).toNat
      (unpack .binary64 b) := by
  have bound : (unpackExponent b).toNat < 2048 := (unpackExponent b).isLt
  unfold unpack
  simp only
  split
  · next full =>
    split
    · next none =>
      rw [full, none]
      exact .infinity
    · next some =>
      rw [full]
      refine .notANumber (Nat.pos_of_ne_zero fun zero => some ?_)
      exact BitVec.eq_of_toNat_eq zero
  · next apart =>
    split
    · next empty =>
      split
      · next none =>
        rw [empty, none]
        exact .zero
      · next some =>
        rw [empty]
        exact .subnormal _
    · next solid =>
      have start : (unpackExponent b).toNat ≠ 0 := fun zero => solid (BitVec.eq_of_toNat_eq zero)
      have stop : (unpackExponent b).toNat ≠ 2047 := fun all => apart (BitVec.eq_of_toNat_eq all)
      have size : (1#1 ++ unpackMantissa b).toNat = hiddenBit + (unpackMantissa b).toNat :=
        toNat_one_append _
      simp only [size]
      exact .normal (by omega) (by omega) _

/-- What is packed with another sign unpacks to the same with that sign. -/
theorem unpack_packComponents (s : Sign) (b : BitVec Format.binary64.numBits) :
    unpack .binary64 (packComponents .binary64 s (unpackExponent b) (unpackMantissa b)) =
      turned s (unpack .binary64 b) := by
  simp only [unpack, unpackMantissa_packComponents, unpackExponent_packComponents,
    unpackSign_packComponents, Sign.ofBitVec_toBitVec]
  split
  · split <;> rfl
  · split
    · split <;> rfl
    · rfl

/-- Whatever sign it gets, a number is packed into the two other fields that it came from. -/
theorem pack_turned (number : unpack .binary64 b ≠ .notANumber) (s : Sign) :
    pack .binary64 (turned s (unpack .binary64 b)) =
      packComponents .binary64 s (unpackExponent b) (unpackMantissa b) := by
  have solid : ¬ isNaNBits (packComponents .binary64 s (unpackExponent b) (unpackMantissa b)) := by
    intro none
    simp only [isNaNBits, unpackExponent_packComponents, unpackMantissa_packComponents,
      decide_eq_true_eq] at none
    apply number
    simp only [unpack, none.1, none.2, if_true, if_false]
  rw [← unpack_packComponents, pack_unpack, if_neg solid]

end fields

section doubles

variable {x y : Float}

def bits (x : Float) : BitVec Format.binary64.numBits :=
  x.toModel.toBits.toBitVec

/-- The sign of a double; a minus zero has a minus, and what is no number has none. -/
def signOf (x : Float) : Sign :=
  Sign.ofBitVec (unpackSign (bits x))

theorem fields_double (x : Float) :
    Fields (signOf x) (unpackExponent (bits x)).toNat (unpackMantissa (bits x)).toNat
      x.toModel.unpack :=
  fields_unpack (bits x)

/-- Doubles are told apart by what they unpack to. -/
theorem eq_of_unpack_eq (same : x.toModel.unpack = y.toModel.unpack) : x = y := by
  apply Float.toBits_inj.1
  apply UInt64.toBitVec_inj.1
  exact (unpack_inj_of_valid x.toModel.valid y.toModel.valid).1 same

/-- A double is finite and not zero, or one of five. -/
theorem special_or_finite (x : Float) :
    x = Decimal.noNumber ∨ x = Decimal.infinity ∨ x = -Decimal.infinity ∨ x = 0 ∨ x = -0 ∨
      ∃ s m e pos, x.toModel.unpack = .finite s m e pos := by
  cases unpacked : x.toModel.unpack with
  | notANumber => exact .inl (eq_of_unpack_eq unpacked)
  | infinity s =>
    cases s with
    | positive => exact .inr (.inl (eq_of_unpack_eq unpacked))
    | negative => exact .inr (.inr (.inl (eq_of_unpack_eq unpacked)))
  | zero s =>
    cases s with
    | positive => exact .inr (.inr (.inr (.inl (eq_of_unpack_eq unpacked))))
    | negative => exact .inr (.inr (.inr (.inr (.inl (eq_of_unpack_eq unpacked)))))
  | finite s m e pos => exact .inr (.inr (.inr (.inr (.inr ⟨s, m, e, pos, rfl⟩))))

theorem unpack_neg (x : Float) : (-x).toModel.unpack = x.toModel.unpack.neg := by
  change unpack .binary64 (pack .binary64 x.toModel.unpack.neg) = x.toModel.unpack.neg
  have fields := fields_double x
  by_cases number : x.toModel.unpack = .notANumber
  · rw [number]
    rfl
  · have packed := pack_turned number (-signOf x)
    rw [fields.neg_eq]
    exact (congrArg (unpack .binary64) packed).trans (unpack_packComponents _ _)

theorem neg_neg (x : Float) : -(-x) = x := by
  apply eq_of_unpack_eq
  rw [unpack_neg, unpack_neg]
  cases x.toModel.unpack with
  | notANumber => rfl
  | infinity s => cases s <;> rfl
  | zero s => cases s <;> rfl
  | finite s m e pos => cases s <;> rfl

theorem isNaN_neg (x : Float) : (-x).isNaN = x.isNaN := by
  change (-x).toModel.unpack.isNaN = x.toModel.unpack.isNaN
  rw [unpack_neg]
  cases x.toModel.unpack <;> rfl

end doubles

end Reckoner.Double
