import Reckoner.Proofs.Double.Comparison

set_option autoImplicit false

namespace Reckoner.Double

open Float.Model (UnpackedFloat)
open Float.Model.UnpackedFloat

/-- How the first double stands to the second; what is no number stands to none. -/
def order? (x y : Float) : Option Ordering :=
  x.toModel.unpack.compare y.toModel.unpack

/-- Where a double stands among all doubles. -/
def rank? : UnpackedFloat → Option (ℤ ×ₗ ℤ ×ₗ ℤ)
  | .notANumber => none
  | .infinity .negative => some (toLex (-2, toLex (0, 0)))
  | .finite .negative m e _ => some (toLex (-1, toLex (-e, -m)))
  | .zero _ => some (toLex (0, toLex (0, 0)))
  | .finite .positive m e _ => some (toLex (1, toLex (e, m)))
  | .infinity .positive => some (toLex (2, toLex (0, 0)))

theorem compare_natCast (m n : Nat) : compare (m : Int) n = compare m n := by
  rw [← cmp_eq_compare, ← cmp_eq_compare]
  exact Nat.strictMono_cast.cmp_map_eq m n

theorem compare_neg (m n : Int) : compare (-m) (-n) = (compare m n).swap := by
  have falling : StrictAnti fun i : Int => -i := fun _ _ => Int.neg_lt_neg
  rw [← Std.OrientedOrd.eq_swap, ← cmp_eq_compare, ← cmp_eq_compare]
  exact falling.cmp_map_eq m n

/-- Within a class the exponents are compared first, then the mantissas. -/
theorem compare_rank (c e f m n : Int) :
    compare (toLex (c, toLex (e, m))) (toLex (c, toLex (f, n))) =
      (compare e f).then (compare m n) := by
  change (compare c c).then ((compare e f).then (compare m n)) = _
  rw [Std.ReflOrd.compare_self]
  rfl

section rank

variable {u v : UnpackedFloat} {p q : ℤ ×ₗ ℤ ×ₗ ℤ}

theorem compare_of_rank? (first : rank? u = some p) (second : rank? v = some q) :
    u.compare v = some (compare p q) := by
  cases u with
  | notANumber => cases first
  | infinity s =>
    cases v with
    | notANumber => cases second
    | infinity t => cases s <;> cases t <;> cases first <;> cases second <;> rfl
    | zero t => cases s <;> cases first <;> cases second <;> rfl
    | finite t n f _ => cases s <;> cases t <;> cases first <;> cases second <;> rfl
  | zero s =>
    cases v with
    | notANumber => cases second
    | infinity t => cases t <;> cases first <;> cases second <;> rfl
    | zero t =>
      cases first
      cases second
      rfl
    | finite t n f _ => cases t <;> cases first <;> cases second <;> rfl
  | finite s m e _ =>
    cases v with
    | notANumber => cases second
    | infinity t => cases s <;> cases t <;> cases first <;> cases second <;> rfl
    | zero t => cases s <;> cases first <;> cases second <;> rfl
    | finite t n f _ =>
      cases s with
      | positive =>
        cases first
        cases t with
        | negative =>
          cases second
          rfl
        | positive =>
          cases second
          rw [compare_rank, compare_natCast]
          rfl
      | negative =>
        cases first
        cases t with
        | positive =>
          cases second
          rfl
        | negative =>
          cases second
          rw [compare_rank, compare_neg, compare_neg, compare_natCast, ← Ordering.swap_then]
          rfl

theorem rank?_eq_none_iff : rank? u = none ↔ u = .notANumber := by
  cases u with
  | notANumber => exact iff_of_true rfl rfl
  | infinity s => cases s <;> exact iff_of_false nofun nofun
  | zero s => exact iff_of_false nofun nofun
  | finite s m e _ => cases s <;> exact iff_of_false nofun nofun

theorem compare_notANumber (u : UnpackedFloat) : u.compare .notANumber = none := by
  cases u <;> rfl

end rank

section order

variable {x y z : Float}

theorem order?_eq (x y : Float) :
    order? x y = (rank? x.toModel.unpack).bind fun p =>
      (rank? y.toModel.unpack).map fun q => compare p q := by
  unfold order?
  cases first : rank? x.toModel.unpack with
  | none =>
    rw [rank?_eq_none_iff.1 first]
    rfl
  | some p =>
    cases second : rank? y.toModel.unpack with
    | none =>
      rw [rank?_eq_none_iff.1 second, compare_notANumber]
      rfl
    | some q => exact compare_of_rank? first second

theorem rank?_eq_none_iff_isNaN : rank? x.toModel.unpack = none ↔ x.isNaN :=
  rank?_eq_none_iff.trans UnpackedFloat.isNaN_iff.symm

/-- Only what is no number stands to no other. -/
theorem order?_eq_none_iff : order? x y = none ↔ x.isNaN ∨ y.isNaN := by
  rw [order?_eq, ← rank?_eq_none_iff_isNaN, ← rank?_eq_none_iff_isNaN]
  cases rank? x.toModel.unpack with
  | none => exact iff_of_true rfl (Or.inl rfl)
  | some p =>
    cases rank? y.toModel.unpack with
    | none => exact iff_of_true rfl (Or.inr rfl)
    | some q => exact iff_of_false nofun (not_or.2 ⟨nofun, nofun⟩)

theorem order?_swap (x y : Float) : order? y x = (order? x y).map Ordering.swap := by
  rw [order?_eq, order?_eq]
  cases rank? x.toModel.unpack with
  | none => cases rank? y.toModel.unpack <;> rfl
  | some p =>
    cases rank? y.toModel.unpack with
    | none => rfl
    | some q => exact congrArg some Std.OrientedOrd.eq_swap

theorem order?_trans (first : order? x y = some .lt) (second : order? y z = some .lt) :
    order? x z = some .lt := by
  rw [order?_eq] at first second ⊢
  cases place : rank? x.toModel.unpack with
  | none =>
    rw [place] at first
    cases first
  | some p =>
    cases place' : rank? y.toModel.unpack with
    | none =>
      rw [place'] at second
      cases second
    | some q =>
      cases place'' : rank? z.toModel.unpack with
      | none =>
        rw [place', place''] at second
        cases second
      | some r =>
        rw [place, place'] at first
        rw [place', place''] at second
        exact congrArg some (Std.TransCmp.lt_trans (Option.some.inj first) (Option.some.inj second))

theorem decide_lt (x y : Float) : decide (x < y) = (order? x y).any Ordering.isLT := by
  have strict (o : Option Ordering) : (o == some .lt) = o.any Ordering.isLT := by
    rcases o with _ | o
    · rfl
    · cases o <;> rfl
  rw [← strict, Bool.eq_iff_iff, decide_eq_true_iff]
  change decide (x.toModel < y.toModel) = true ↔ _
  rw [decide_eq_true_iff]
  exact Iff.rfl

theorem decide_le (x y : Float) : decide (x ≤ y) = (order? x y).any Ordering.isLE := by
  rw [Bool.eq_iff_iff, decide_eq_true_iff]
  change decide (x.toModel ≤ y.toModel) = true ↔ _
  rw [decide_eq_true_iff]
  exact Iff.rfl

theorem beq_eq (x y : Float) : (x == y) = (order? x y).any Ordering.isEq := by
  have equal (o : Option Ordering) : (o == some .eq) = o.any Ordering.isEq := by
    rcases o with _ | o
    · rfl
    · cases o <;> rfl
  exact equal (order? x y)

end order

end Reckoner.Double
