import Reckoner.Proofs.Double.Comparison
import Reckoner.Proofs.Operator.Standard

set_option autoImplicit false

namespace Reckoner

namespace Value

variable {φ : Type}

/-- A NaN is in the value, at any depth of its lists. -/
inductive HoldsNaN : Value φ → Prop
  | number {x : Float} (nan : x.isNaN) : HoldsNaN (number x)
  | item {v : Value φ} {items : List (Value φ)} (member : v ∈ items) (inside : HoldsNaN v) :
      HoldsNaN (list items)

theorem holdsNaN_number_iff {x : Float} : HoldsNaN (number x : Value φ) ↔ x.isNaN := by
  constructor
  · rintro ⟨nan⟩
    exact nan
  · exact .number

theorem holdsNaN_list_iff {items : List (Value φ)} :
    HoldsNaN (list items) ↔ ∃ v ∈ items, HoldsNaN v := by
  constructor
  · intro holds
    cases holds with
    | item member inside => exact ⟨_, member, inside⟩
  · rintro ⟨v, member, inside⟩
    exact .item member inside

/-- The value is NaN itself, and no list that holds one. -/
def isNaN : Value φ → Bool
  | number x => x.isNaN
  | _ => false

theorem numericallyEqual_comm (a b : Value φ) :
    a.numericallyEqual b = b.numericallyEqual a := by
  unfold numericallyEqual
  cases a.looseNumber? with
  | none => cases b.looseNumber? <;> rfl
  | some x =>
    cases b.looseNumber? with
    | none => rfl
    | some y => exact BEq.comm

mutual

theorem looselyEqual_comm (a b : Value φ) : a.looselyEqual b = b.looselyEqual a := by
  cases a with
  | list xs =>
    cases b with
    | list ys => exact allLooselyEqual_comm xs ys
    | _ => rfl
  | text s =>
    cases b with
    | text t => exact Bool.beq_comm
    | number y => exact numericallyEqual_comm (text s : Value φ) (number y)
    | bool y => exact numericallyEqual_comm (text s : Value φ) (bool y)
    | _ => rfl
  | callable c =>
    cases b with
    | callable d => exact Bool.beq_comm (a := c.identity)
    | _ => rfl
  | missing => cases b <;> rfl
  | number x =>
    cases b with
    | number y => exact numericallyEqual_comm (number x : Value φ) (number y)
    | text t => exact numericallyEqual_comm (number x : Value φ) (text t)
    | bool y => exact numericallyEqual_comm (number x : Value φ) (bool y)
    | _ => rfl
  | bool x =>
    cases b with
    | number y => exact numericallyEqual_comm (bool x : Value φ) (number y)
    | text t => exact numericallyEqual_comm (bool x : Value φ) (text t)
    | bool y => exact numericallyEqual_comm (bool x : Value φ) (bool y)
    | _ => rfl

theorem allLooselyEqual_comm (xs ys : List (Value φ)) :
    allLooselyEqual xs ys = allLooselyEqual ys xs := by
  cases xs with
  | nil => cases ys <;> rfl
  | cons x xs =>
    cases ys with
    | nil => rfl
    | cons y ys => rw [allLooselyEqual, allLooselyEqual, looselyEqual_comm, allLooselyEqual_comm]

end

mutual

theorem looselyEqual_of_strictlyEqual {a b : Value φ} (same : a.strictlyEqual b) :
    a.looselyEqual b := by
  cases a with
  | list xs =>
    cases b with
    | list ys => exact allLooselyEqual_of_allStrictlyEqual same
    | _ => cases same
  | bool x =>
    cases b with
    | bool y =>
      obtain rfl := eq_of_beq same
      exact Double.beq_self_ofBool x
    | _ => cases same
  | _ => cases b <;> first | exact same | cases same

theorem allLooselyEqual_of_allStrictlyEqual {xs ys : List (Value φ)}
    (same : allStrictlyEqual xs ys) : allLooselyEqual xs ys := by
  cases xs with
  | nil => cases ys <;> exact same
  | cons x xs =>
    cases ys with
    | nil => cases same
    | cons y ys =>
      rw [allStrictlyEqual, Bool.and_eq_true] at same
      rw [allLooselyEqual, Bool.and_eq_true]
      exact ⟨looselyEqual_of_strictlyEqual same.1, allLooselyEqual_of_allStrictlyEqual same.2⟩

end

mutual

theorem looselyEqual_self_iff (v : Value φ) : v.looselyEqual v ↔ ¬ v.HoldsNaN := by
  cases v with
  | missing => exact iff_of_true rfl nofun
  | number x =>
    rw [holdsNaN_number_iff, Bool.not_eq_true, ← Bool.not_eq_true', ← Double.beq_self]
    rfl
  | text s => exact iff_of_true (beq_self_eq_true s) nofun
  | bool b => exact iff_of_true (Double.beq_self_ofBool b) nofun
  | callable c => exact iff_of_true (beq_self_eq_true c.identity) nofun
  | list items =>
    rw [holdsNaN_list_iff, not_exists]
    simp only [not_and]
    exact allLooselyEqual_self_iff items

theorem allLooselyEqual_self_iff (items : List (Value φ)) :
    allLooselyEqual items items ↔ ∀ v ∈ items, ¬ v.HoldsNaN := by
  cases items with
  | nil => exact iff_of_true rfl nofun
  | cons v rest =>
    rw [allLooselyEqual, Bool.and_eq_true, looselyEqual_self_iff, allLooselyEqual_self_iff,
      List.forall_mem_cons]

end

theorem looselyEqual_missing_iff {v : Value φ} : missing.looselyEqual v ↔ v = missing := by
  cases v with
  | missing => exact iff_of_true rfl rfl
  | _ => exact iff_of_false nofun nofun

end Value

variable {φ : Type}

/-- The standard `=` answers for any two values, whichever stands on the left, and `!=` answers the
opposite. It extends equality within one kind; a value equals itself unless a NaN is in it; and what
is missing equals nothing else. -/
theorem Standard.equal_extends (a b : Value φ) (made : Nat) :
    Tree.applied Config.standard "=" [a, b] made = .ok (.bool (a.looselyEqual b), made) ∧
    Tree.applied Config.standard "!=" [a, b] made = .ok (.bool !(a.looselyEqual b), made) ∧
    a.looselyEqual b = b.looselyEqual a ∧
    (a == b → a.looselyEqual b) ∧
    (a.looselyEqual a ↔ ¬ a.HoldsNaN) ∧
    (Value.missing.looselyEqual b ↔ b = .missing) := by
  refine ⟨?_, ?_, Value.looselyEqual_comm a b, Value.looselyEqual_of_strictlyEqual,
    Value.looselyEqual_self_iff a, Value.looselyEqual_missing_iff⟩
  · have listed : ("=", binary fun a b => .ok (.bool (a.looselyEqual b))) ∈
        (operators : List (String × Operator φ)) := by
      simp [operators]
    exact applied_of_listed listed a b made
  · have listed : ("!=", binary fun a b => .ok (.bool !(a.looselyEqual b))) ∈
        (operators : List (String × Operator φ)) := by
      simp [operators]
    exact applied_of_listed listed a b made

end Reckoner
