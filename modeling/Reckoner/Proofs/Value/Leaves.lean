import Reckoner.Proofs.Double.Comparison
import Reckoner.Proofs.Value.Coercion

set_option autoImplicit false

namespace Reckoner.Value

variable {φ : Type}

mutual

/-- What is no list in a value, from left to right. An empty list counts as one leaf, missing. -/
def leaves : Value φ → List (Value φ)
  | list [] => [missing]
  | list (v :: rest) => leaves v ++ allLeaves rest
  | v => [v]

def allLeaves : List (Value φ) → List (Value φ)
  | [] => []
  | v :: rest => leaves v ++ allLeaves rest

end

/-- The text of a leaf; what is missing has none. -/
def leafText : Value φ → String
  | missing => ""
  | v => v.display

/-- The values that a list is compared with through its text. -/
def IsScalar : Value φ → Prop
  | number _ => True
  | text _ => True
  | bool _ => True
  | _ => False

/-- One value is another with an empty list in it, at any depth, made missing. -/
inductive Blanked : Value φ → Value φ → Prop
  | here : Blanked (list []) missing
  | item {v w : Value φ} (front back : List (Value φ)) (inside : Blanked v w) :
      Blanked (list (front ++ v :: back)) (list (front ++ w :: back))

theorem allLeaves_append (front back : List (Value φ)) :
    allLeaves (front ++ back) = allLeaves front ++ allLeaves back := by
  induction front with
  | nil => rfl
  | cons v rest ih => rw [List.cons_append, allLeaves, allLeaves, ih, List.append_assoc]

theorem leaves_list {items : List (Value φ)} (nonempty : items ≠ []) :
    (list items).leaves = allLeaves items := by
  cases items with
  | nil => exact absurd rfl nonempty
  | cons v rest => rw [leaves, allLeaves]

/-- Items may as well stand in the list as in a list of their own. -/
theorem leaves_splice {inner : List (Value φ)} (nonempty : inner ≠ [])
    (front back : List (Value φ)) :
    (list (front ++ list inner :: back)).leaves = (list (front ++ (inner ++ back))).leaves := by
  have outer : front ++ list inner :: back ≠ [] := List.append_ne_nil_of_right_ne_nil _ nofun
  have joined : front ++ (inner ++ back) ≠ [] :=
    List.append_ne_nil_of_right_ne_nil _ (List.append_ne_nil_of_left_ne_nil nonempty _)
  rw [leaves_list outer, leaves_list joined, allLeaves_append, allLeaves, leaves_list nonempty,
    allLeaves_append, allLeaves_append]

theorem Blanked.leaves_eq {v w : Value φ} (blanked : Blanked v w) : v.leaves = w.leaves := by
  induction blanked with
  | here => rfl
  | item front back inside ih =>
    have filled (u : Value φ) : front ++ u :: back ≠ [] :=
      List.append_ne_nil_of_right_ne_nil _ nofun
    rw [leaves_list (filled _), leaves_list (filled _), allLeaves_append, allLeaves_append,
      allLeaves, allLeaves, ih]

mutual

theorem kind_ne_of_mem_leaves {leaf v : Value φ} (member : leaf ∈ v.leaves) :
    leaf.kind ≠ .list := by
  cases v with
  | list items =>
    cases items with
    | nil =>
      obtain rfl := List.mem_singleton.1 member
      exact nofun
    | cons v rest =>
      rw [leaves, List.mem_append] at member
      rcases member with here | later
      · exact kind_ne_of_mem_leaves here
      · exact kind_ne_of_mem_allLeaves later
  | _ =>
    obtain rfl := List.mem_singleton.1 member
    exact nofun

theorem kind_ne_of_mem_allLeaves {leaf : Value φ} {items : List (Value φ)}
    (member : leaf ∈ allLeaves items) : leaf.kind ≠ .list := by
  cases items with
  | nil => cases member
  | cons v rest =>
    rw [allLeaves, List.mem_append] at member
    rcases member with here | later
    · exact kind_ne_of_mem_leaves here
    · exact kind_ne_of_mem_allLeaves later

end

theorem leaves_ne_nil (v : Value φ) : v.leaves ≠ [] := by
  cases v with
  | list items =>
    cases items with
    | nil => exact List.cons_ne_nil missing []
    | cons v rest =>
      rw [leaves]
      exact List.append_ne_nil_of_left_ne_nil (leaves_ne_nil v) _
  | _ => exact List.cons_ne_nil _ []

theorem allLeaves_ne_nil {items : List (Value φ)} (nonempty : items ≠ []) :
    allLeaves items ≠ [] := by
  rw [← leaves_list nonempty]
  exact leaves_ne_nil _

mutual

/-- The text of an item is that of its leaves with commas between them. -/
theorem itemText_eq (v : Value φ) : v.itemText = ",".intercalate (v.leaves.map leafText) := by
  cases v with
  | list items =>
    rw [itemText_list]
    exact commaText_eq items
  | _ => exact String.intercalate_singleton.symm

theorem commaText_eq (items : List (Value φ)) :
    commaText items = ",".intercalate ((list items).leaves.map leafText) := by
  cases items with
  | nil => rfl
  | cons v rest =>
    rw [commaText, List.map_cons, itemText_eq v]
    cases rest with
    | nil => rw [leaves, allLeaves, List.append_nil, List.map_nil, String.intercalate_singleton]
    | cons w more =>
      have later := commaText_eq (w :: more)
      have here : v.leaves.map leafText ≠ [] := mt List.map_eq_nil_iff.1 v.leaves_ne_nil
      have others : (allLeaves (w :: more)).map leafText ≠ [] :=
        mt List.map_eq_nil_iff.1 (allLeaves_ne_nil (List.cons_ne_nil w more))
      rw [leaves_list (List.cons_ne_nil w more), commaText] at later
      rw [leaves, List.map_append, String.intercalate_append_of_ne_nil here others, ← later,
        String.intercalate_cons_of_ne_nil (mt List.map_eq_nil_iff.1 (List.cons_ne_nil w more))]

end

/-- Two leaves have a comma between them. -/
theorem comma_mem_commaText {items : List (Value φ)} (several : 2 ≤ (list items).leaves.length) :
    ',' ∈ (commaText items).toList := by
  rw [commaText_eq]
  match (list items).leaves, several with
  | v :: w :: rest, _ =>
    rw [List.map_cons, List.map_cons, String.intercalate_cons_cons, String.toList_append,
      String.toList_append]
    exact List.mem_append_left _ (List.mem_append_right _ (List.mem_singleton.2 rfl))

theorem isNaN_textNumber_commaText {items : List (Value φ)}
    (several : 2 ≤ (list items).leaves.length) : (textNumber (commaText items)).isNaN := by
  rw [textNumber_of_mem (comma_mem_commaText several) (by decide) (by decide) (by decide)]
  exact Double.isNaN_noNumber

theorem looselyEqual_list_of_isScalar {s : Value φ} (scalar : s.IsScalar)
    (items : List (Value φ)) : (list items).looselyEqual s = textEqual (commaText items) s := by
  cases s with
  | number x => rfl
  | text t => rfl
  | bool b => rfl
  | _ => cases scalar

/-- A list looks to a number, a text or a truth value like the sequence of its leaves: the items of
an inner list may as well be items of the outer one, and an empty list may as well be missing. With
two leaves or more it equals no number and no truth value, and it equals the one text that has the
texts of the leaves with commas between them. -/
theorem looselyEqual_leaves (items : List (Value φ)) :
    (∀ leaf ∈ (list items).leaves, leaf.kind ≠ .list) ∧
    (∀ others s, IsScalar s → (list others).leaves = (list items).leaves →
      (list others).looselyEqual s = (list items).looselyEqual s) ∧
    (∀ front inner back, inner ≠ [] → items = front ++ list inner :: back →
      commaText items = commaText (front ++ (inner ++ back))) ∧
    (∀ others, Blanked (list items) (list others) → commaText items = commaText others) ∧
    (2 ≤ (list items).leaves.length →
      (∀ x, (list items).looselyEqual (number x) = false) ∧
        ∀ b, (list items).looselyEqual (bool b) = false) ∧
    ∀ t, (list items).looselyEqual (text t) ↔
      t = ",".intercalate ((list items).leaves.map leafText) := by
  refine ⟨fun leaf => kind_ne_of_mem_leaves, ?_, ?_, ?_, ?_, ?_⟩
  · intro others s scalar same
    rw [looselyEqual_list_of_isScalar scalar, looselyEqual_list_of_isScalar scalar, commaText_eq,
      commaText_eq, same]
  · rintro front inner back nonempty rfl
    rw [commaText_eq, commaText_eq, leaves_splice nonempty]
  · intro others blanked
    rw [commaText_eq, commaText_eq, blanked.leaves_eq]
  · intro several
    have nan := isNaN_textNumber_commaText several
    exact ⟨fun x => Double.beq_of_isNaN nan x, fun b => Double.beq_of_isNaN nan _⟩
  · intro t
    rw [← commaText_eq, looselyEqual_list_of_isScalar (s := text t) trivial, eq_comm (a := t)]
    exact beq_iff_eq

end Reckoner.Value
