import Reckoner.Value.Document

set_option autoImplicit false

namespace Reckoner

inductive Json.HoldsObject : Json → Prop
  | object (fields : List (String × Json)) : HoldsObject (.object fields)
  | item {j : Json} {items : List Json} (member : j ∈ items) (inside : HoldsObject j) :
      HoldsObject (.array items)

namespace Json

mutual

def inDoubles : Json → Json
  | number n => ofFloat n.toFloat
  | array items => array (allInDoubles items)
  | j => j

def allInDoubles : List Json → List Json
  | [] => []
  | j :: rest => inDoubles j :: allInDoubles rest

end

theorem not_holdsObject_array_iff {items : List Json} :
    ¬ HoldsObject (.array items) ↔ ∀ j ∈ items, ¬ HoldsObject j := by
  constructor
  · intro free j member inside
    exact free (.item member inside)
  · intro free holds
    cases holds with
    | item member inside => exact free _ member inside

end Json

namespace Value

variable {φ : Type}

/-- The fault of a document with an object in it. -/
def refusal : Fault :=
  .typeMismatch "JSON objects have no Flowo value"

theorem ofJsons_cons_of_error {j : Json} {fault : Fault}
    (failed : (ofJson j : Except Fault (Value φ)) = .error fault) (rest : List Json) :
    (ofJsons (j :: rest) : Except Fault (List (Value φ))) = .error fault := by
  rw [ofJsons, failed]
  rfl

theorem ofJsons_cons_of_ok {j : Json} {v : Value φ} (read : ofJson j = .ok v) (rest : List Json) :
    ofJsons (j :: rest) = (ofJsons rest).map (v :: ·) := by
  rw [ofJsons, read]
  cases (ofJsons rest : Except Fault (List (Value φ))) <;> rfl

mutual

/-- A document is refused if there is an object in it, and if there is none it is the document of the
value that is read, but for the form of its numbers. -/
theorem ofJson_cases (j : Json) :
    (j.HoldsObject ∧ (ofJson j : Except Fault (Value φ)) = .error refusal) ∨
      (¬ j.HoldsObject ∧ ∃ v : Value φ, ofJson j = .ok v ∧ v.toJson = j.inDoubles) := by
  cases j with
  | object fields => exact Or.inl ⟨.object fields, rfl⟩
  | array items =>
    rcases ofJsons_cases items with ⟨⟨k, member, holds⟩, failed⟩ | ⟨free, vs, read, same⟩
    · refine Or.inl ⟨.item member holds, ?_⟩
      rw [ofJson, failed]
      rfl
    · refine Or.inr ⟨Json.not_holdsObject_array_iff.2 free, list vs, ?_, ?_⟩
      · rw [ofJson, read]
        rfl
      · rw [toJson, same, Json.inDoubles]
  | null => exact Or.inr ⟨nofun, missing, rfl, rfl⟩
  | bool b => exact Or.inr ⟨nofun, bool b, rfl, rfl⟩
  | number n => exact Or.inr ⟨nofun, number n.toFloat, rfl, rfl⟩
  | string s => exact Or.inr ⟨nofun, text s, rfl, rfl⟩

theorem ofJsons_cases (items : List Json) :
    ((∃ j ∈ items, j.HoldsObject) ∧
        (ofJsons items : Except Fault (List (Value φ))) = .error refusal) ∨
      ((∀ j ∈ items, ¬ j.HoldsObject) ∧
        ∃ vs : List (Value φ), ofJsons items = .ok vs ∧ toJsons vs = Json.allInDoubles items) := by
  cases items with
  | nil => exact Or.inr ⟨nofun, [], rfl, rfl⟩
  | cons j rest =>
    rcases ofJson_cases j with ⟨holds, failed⟩ | ⟨free, v, read, same⟩
    · exact Or.inl ⟨⟨j, List.mem_cons_self, holds⟩, ofJsons_cons_of_error failed rest⟩
    · rw [ofJsons_cons_of_ok read]
      rcases ofJsons_cases rest with ⟨⟨k, member, holds⟩, failed⟩ | ⟨others, vs, readToo, sameToo⟩
      · refine Or.inl ⟨⟨k, List.mem_cons_of_mem j member, holds⟩, ?_⟩
        rw [failed]
        rfl
      · refine Or.inr ⟨List.forall_mem_cons.2 ⟨free, others⟩, v :: vs, ?_, ?_⟩
        · rw [readToo]
          rfl
        · rw [toJsons, same, sameToo, Json.allInDoubles]

end

mutual

/-- What is left of a value that has been a document. -/
def portable : Value φ → Value φ
  | number x => if x.isFinite then number x else missing
  | callable c => text (callableText c)
  | list items => list (portables items)
  | v => v

def portables : List (Value φ) → List (Value φ)
  | [] => []
  | v :: rest => portable v :: portables rest

end

/-- A number that is not finite, or a callable, is in the value, at any depth of its lists. -/
inductive HoldsUnportable : Value φ → Prop
  | number {x : Float} (boundless : x.isFinite = false) : HoldsUnportable (number x)
  | callable (c : Callable φ) : HoldsUnportable (callable c)
  | item {v : Value φ} {items : List (Value φ)} (member : v ∈ items)
      (inside : HoldsUnportable v) : HoldsUnportable (list items)

theorem not_holdsUnportable_list_iff {items : List (Value φ)} :
    ¬ HoldsUnportable (list items) ↔ ∀ v ∈ items, ¬ HoldsUnportable v := by
  constructor
  · intro free v member inside
    exact free (.item member inside)
  · intro free holds
    cases holds with
    | item member inside => exact free _ member inside

mutual

/-- The document of a value is read as what is left of the value. -/
theorem ofJson_toJson (v : Value φ) : ofJson v.toJson = .ok v.portable := by
  cases v with
  | number x =>
    change ofJson (Json.ofFloat x) = .ok (if x.isFinite then number x else missing)
    unfold Json.ofFloat
    split
    · rfl
    · rfl
  | list items =>
    have read := ofJsons_toJsons items
    change (ofJsons (toJsons items)).map list = .ok (list (portables items))
    rw [read]
    rfl
  | missing => rfl
  | text s => rfl
  | bool b => rfl
  | callable c => rfl

theorem ofJsons_toJsons (items : List (Value φ)) :
    ofJsons (toJsons items) = .ok (portables items) := by
  cases items with
  | nil => rfl
  | cons v rest =>
    have first := ofJson_toJson v
    have others := ofJsons_toJsons rest
    rw [toJsons, ofJsons_cons_of_ok first, others]
    rfl

end

mutual

/-- Nothing is lost of a value exactly if all of it can be written. -/
theorem portable_eq_self_iff (v : Value φ) : v.portable = v ↔ ¬ v.HoldsUnportable := by
  cases v with
  | number x =>
    by_cases finite : x.isFinite
    · refine iff_of_true (if_pos finite) ?_
      rintro ⟨boundless⟩
      rw [finite] at boundless
      cases boundless
    · have lost : (number x : Value φ).portable = missing := if_neg finite
      rw [lost]
      exact iff_of_false nofun fun kept => kept (.number (Bool.eq_false_iff.2 finite))
  | list items =>
    rw [portable, list.injEq, not_holdsUnportable_list_iff]
    exact portables_eq_self_iff items
  | callable c => exact iff_of_false nofun fun kept => kept (.callable c)
  | missing => exact iff_of_true rfl nofun
  | text s => exact iff_of_true rfl nofun
  | bool b => exact iff_of_true rfl nofun

theorem portables_eq_self_iff (items : List (Value φ)) :
    portables items = items ↔ ∀ v ∈ items, ¬ v.HoldsUnportable := by
  cases items with
  | nil => exact iff_of_true rfl nofun
  | cons v rest =>
    rw [portables, List.cons.injEq, portable_eq_self_iff, portables_eq_self_iff,
      List.forall_mem_cons]

end

/-- A document is a value exactly if no object is in it, and every other one is refused for that; what
is read has the same document but for the form of its numbers. A value is read again from its own
document as it was, but that a number that is not finite is missing and a callable is its text; so
exactly the values with neither in them are read as they were. -/
theorem document_exchange (j : Json) (v : Value φ) :
    ((∃ w : Value φ, ofJson j = .ok w ∧ w.toJson = j.inDoubles) ↔ ¬ j.HoldsObject) ∧
    ((ofJson j : Except Fault (Value φ)) =
        .error (.typeMismatch "JSON objects have no Flowo value") ↔ j.HoldsObject) ∧
    ofJson v.toJson = .ok v.portable ∧
    (ofJson v.toJson = .ok v ↔ ¬ v.HoldsUnportable) := by
  have exactly : ofJson v.toJson = .ok v ↔ ¬ v.HoldsUnportable := by
    rw [ofJson_toJson, Except.ok.injEq]
    exact portable_eq_self_iff v
  rcases ofJson_cases (φ := φ) j with ⟨holds, failed⟩ | ⟨free, w, read, same⟩
  · have unread : ¬ ∃ w : Value φ, ofJson j = .ok w ∧ w.toJson = j.inDoubles := by
      rintro ⟨w, read, -⟩
      rw [failed] at read
      cases read
    exact ⟨iff_of_false unread fun free => free holds, iff_of_true failed holds,
      ofJson_toJson v, exactly⟩
  · have accepted : (ofJson j : Except Fault (Value φ)) ≠ .error refusal := by
      intro failed
      rw [read] at failed
      cases failed
    exact ⟨iff_of_true ⟨w, read, same⟩ free, iff_of_false accepted free, ofJson_toJson v, exactly⟩

end Value

end Reckoner
