import Reckoner.Proofs.Value.Equality

set_option autoImplicit false

namespace Reckoner

namespace Value

variable {φ : Type}

theorem allStrictlyEqual_of_mem {v : Value φ} (never : ∀ w : Value φ, w.strictlyEqual v = false)
    {items : List (Value φ)} (member : v ∈ items) (others : List (Value φ)) :
    allStrictlyEqual others items = false := by
  induction member generalizing others with
  | head rest =>
    cases others with
    | nil => rfl
    | cons w others => rw [allStrictlyEqual, never, Bool.false_and]
  | tail first _ ih =>
    cases others with
    | nil => rfl
    | cons w others => rw [allStrictlyEqual, ih, Bool.and_false]

/-- What holds a NaN equals nothing of its kind. -/
theorem strictlyEqual_of_holdsNaN {a : Value φ} (holds : a.HoldsNaN) (b : Value φ) :
    b.strictlyEqual a = false := by
  induction holds generalizing b with
  | number nan =>
    cases b with
    | number y => exact BEq.comm.trans (Double.beq_of_isNaN nan y)
    | _ => rfl
  | item member _ ih =>
    cases b with
    | list others => exact allStrictlyEqual_of_mem ih member others
    | _ => rfl

mutual

theorem strictlyEqual_self {a : Value φ} (free : ¬ a.HoldsNaN) : a.strictlyEqual a := by
  cases a with
  | missing => rfl
  | number x =>
    rw [holdsNaN_number_iff, Bool.not_eq_true] at free
    change (x == x) = true
    rw [Double.beq_self, free]
    rfl
  | text s => exact beq_self_eq_true s
  | bool b => exact beq_self_eq_true b
  | list items =>
    apply allStrictlyEqual_self
    intro v member inside
    exact free (.item member inside)
  | callable c => exact beq_self_eq_true c.identity

theorem allStrictlyEqual_self {items : List (Value φ)} (free : ∀ v ∈ items, ¬ v.HoldsNaN) :
    allStrictlyEqual items items := by
  cases items with
  | nil => rfl
  | cons v rest =>
    rw [List.forall_mem_cons] at free
    rw [allStrictlyEqual, Bool.and_eq_true]
    exact ⟨strictlyEqual_self free.1, allStrictlyEqual_self free.2⟩

end

theorem isSame_iff {a b : Value φ} :
    a.isSame b ↔ a == b ∨ (a.isNaN = true ∧ b.isNaN = true) := by
  have strict (other : ¬ (a.isNaN = true ∧ b.isNaN = true)) :
      a == b ↔ a == b ∨ (a.isNaN = true ∧ b.isNaN = true) :=
    (or_iff_left other).symm
  cases a with
  | number x =>
    cases b with
    | number y =>
      change (x == y || (x.isNaN && y.isNaN)) = true ↔ (x == y) = true ∨ _
      rw [Bool.or_eq_true, Bool.and_eq_true]
      rfl
    | _ => exact strict nofun
  | _ => exact strict nofun

/-- A value is the same as itself unless it is a list that holds a NaN. -/
theorem isSame_self {a : Value φ} (sound : ¬ (a.kind = .list ∧ a.HoldsNaN)) : a.isSame a := by
  rw [isSame_iff]
  by_cases holds : a.HoldsNaN
  · right
    cases holds with
    | number nan => exact ⟨nan, nan⟩
    | item member inside => exact absurd ⟨rfl, .item member inside⟩ sound
  · left
    exact strictlyEqual_self holds

theorem isSame_of_holdsNaN {a : Value φ} (spoiled : a.kind = .list ∧ a.HoldsNaN) (b : Value φ) :
    b.isSame a = false := by
  obtain ⟨kind, holds⟩ := spoiled
  have number : a.isNaN = false := by
    cases a with
    | list items => rfl
    | _ => cases kind
  rw [← Bool.not_eq_true, isSame_iff, number]
  have differ : ¬ (b == a) = true := Bool.eq_false_iff.1 (strictlyEqual_of_holdsNaN holds b)
  exact not_or.2 ⟨differ, fun both => Bool.false_ne_true both.2⟩

variable {a : Value φ} {items : List (Value φ)}

theorem any_isSame_iff : (items.any fun item => item.isSame a) = true ↔
    ∃ item ∈ items, item == a ∨ (item.isNaN = true ∧ a.isNaN = true) := by
  rw [List.any_eq_true]
  exact exists_congr fun item => and_congr_right fun _ => isSame_iff

theorem any_isSame_of_holdsNaN (spoiled : a.kind = .list ∧ a.HoldsNaN) :
    (items.any fun item => item.isSame a) = false := by
  rw [List.any_eq_false]
  intro item _
  rw [isSame_of_holdsNaN spoiled]
  exact Bool.false_ne_true

theorem any_isSame_iff_of_mem (member : a ∈ items) :
    (items.any fun item => item.isSame a) = true ↔ ¬ (a.kind = .list ∧ a.HoldsNaN) := by
  constructor
  · intro within spoiled
    rw [any_isSame_of_holdsNaN spoiled] at within
    cases within
  · intro sound
    exact List.any_eq_true.2 ⟨a, member, isSame_self sound⟩

end Value

namespace Standard

variable {φ : Type}

theorem answers_in_list (a : Value φ) (items : List (Value φ)) :
    Answers "in" a (.list items) (items.any fun item => item.isSame a) :=
  answers_of_applied (applied_contains a (.list items)) rfl

theorem answers_in_text (a : Value φ) (t : String) :
    Answers "in" a (.text t) (t.contains a.display) :=
  answers_of_applied (applied_contains a (.text t)) rfl

theorem answers_in_of_isInfix {a : Value φ} {t : String} (part : a.display.toList <:+: t.toList) :
    Answers "in" a (.text t) true := by
  rw [← String.contains_string_iff.2 part]
  exact answers_in_text a t

theorem refuses_in_iff {a b : Value φ} :
    Refuses "in" a b ↔ b.kind ≠ .list ∧ b.kind ≠ .text := by
  constructor
  · intro refuses
    constructor
    · intro list
      cases b with
      | list items => exact (answers_in_list a items).not_refuses refuses
      | _ => cases list
    · intro text
      cases b with
      | text t => exact (answers_in_text a t).not_refuses refuses
      | _ => cases text
  · rintro ⟨list, text⟩
    cases b with
    | list items => exact absurd rfl list
    | text t => exact absurd rfl text
    | _ => exact refuses_of_applied (applied_contains a _) rfl

theorem add_text (t : String) (a : Value φ) : add (.text t) a = .ok (.text (t ++ a.display)) := by
  cases a <;> rfl

theorem add_to_text (a : Value φ) (t : String) : add a (.text t) = .ok (.text (a.display ++ t)) := by
  cases a <;> rfl

/-- The standard `in` finds a value in a list that is made of two exactly if it finds it in one of the
two. It finds what equals an item within its kind, and NaN where a NaN is an item: so it finds every
item but a list that holds a NaN, which it finds nowhere, and what it finds is loosely equal to an item
or is NaN. In a text it finds a value whose text is a part of it, such as one that `+` has joined to
either side. On the right of it everything else is refused. -/
theorem membership (a b : Value φ) (xs ys : List (Value φ)) (t : String) :
    ∃ inXs inYs inText : Bool,
      Answers "in" a (.list xs) inXs ∧
      Answers "in" a (.list ys) inYs ∧
      Answers "in" a (.list (xs ++ ys)) (inXs || inYs) ∧
      (inXs ↔ ∃ item ∈ xs, item == a ∨ (item.isNaN = true ∧ a.isNaN = true)) ∧
      (a.kind = .list ∧ a.HoldsNaN → inXs = false) ∧
      (a ∈ xs → (inXs ↔ ¬ (a.kind = .list ∧ a.HoldsNaN))) ∧
      (inXs → (∃ item ∈ xs, item.looselyEqual a) ∨ a.isNaN) ∧
      Answers "in" a (.text t) inText ∧
      (inText ↔ a.display.toList <:+: t.toList) ∧
      (∃ joined : String,
        (∀ made, Tree.applied Config.standard "+" [.text t, a] made = .ok (.text joined, made)) ∧
        Answers "in" a (.text joined) true) ∧
      (∃ joined : String,
        (∀ made, Tree.applied Config.standard "+" [a, .text t] made = .ok (.text joined, made)) ∧
        Answers "in" a (.text joined) true) ∧
      (Refuses "in" a b ↔ b.kind ≠ .list ∧ b.kind ≠ .text) := by
  refine ⟨_, _, _, answers_in_list a xs, answers_in_list a ys, ?_, Value.any_isSame_iff,
    Value.any_isSame_of_holdsNaN, Value.any_isSame_iff_of_mem, ?_, answers_in_text a t,
    String.contains_string_iff, ⟨t ++ a.display, ?_, ?_⟩, ⟨a.display ++ t, ?_, ?_⟩, refuses_in_iff⟩
  · rw [← List.any_append]
    exact answers_in_list a (xs ++ ys)
  · intro within
    obtain ⟨item, member, equal | ⟨-, nan⟩⟩ := Value.any_isSame_iff.1 within
    · exact Or.inl ⟨item, member, Value.looselyEqual_of_strictlyEqual equal⟩
    · exact Or.inr nan
  · intro made
    rw [applied_add, add_text]
    rfl
  · apply answers_in_of_isInfix
    rw [String.toList_append]
    exact (List.suffix_append _ _).isInfix
  · intro made
    rw [applied_add, add_to_text]
    rfl
  · apply answers_in_of_isInfix
    rw [String.toList_append]
    exact (List.prefix_append _ _).isInfix

end Standard

end Reckoner
