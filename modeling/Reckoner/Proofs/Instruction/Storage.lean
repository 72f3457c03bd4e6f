import Reckoner.Evaluation
import Reckoner.Instruction.Document
import Reckoner.Proofs.Json.Reading
import Reckoner.Proofs.Lists

set_option autoImplicit false

namespace Reckoner

namespace Instruction

def numbers : Instruction → List Float
  | push (.number x) => [x]
  | _ => []

/-- The counts of values that an instruction takes. -/
def counts : Instruction → List Nat
  | apply _ arity => [arity]
  | collect count => [count]
  | call arity => [arity]
  | _ => []

/-- What is read where an instruction was written. -/
def reread? : Instruction → Option Instruction
  | push (.number x) => (Json.rereadFloat? x).map fun y => push (.number y)
  | push (.text s) => some (push (.text s))
  | load name => some (load name)
  | apply symbol arity => (Json.rereadCount? arity).map (apply symbol)
  | collect count => (Json.rereadCount? count).map collect
  | call arity => (Json.rereadCount? arity).map call

theorem count?_reread? (n depth : Nat) :
    (Json.reread? depth (.ofNat n)).bind Json.count? = Json.rereadCount? n := by
  have number : Json.reread? depth (.ofNat n) = (Json.Number.whole (.ofNat n)).reread? := by
    cases depth <;> rfl
  rw [number, Json.reread?_count]

theorem float?_reread? (x : Float) (depth : Nat) :
    (Json.reread? depth (.ofFloat x)).bind Json.float? = Json.rereadFloat? x := by
  by_cases finite : x.isFinite
  · have number : Json.reread? depth (.ofFloat x) = (Json.Number.real x).reread? := by
      rw [Json.ofFloat, if_pos finite]
      cases depth <;> rfl
    rw [number, Json.reread?_float]
  · have other := Bool.eq_false_iff.2 finite
    rw [Json.rereadFloat?_of_not_isFinite other, Json.ofFloat, other]
    cases depth <;> rfl

theorem ofJson?_reread?_literal (literal : Literal) (depth : Nat) :
    ((Json.reread? (depth + 1) literal.toJson).bind Literal.ofJson?).map push =
      (push literal).reread? := by
  cases literal with
  | text s => cases depth <;> rfl
  | number x =>
    rw [reread?, ← float?_reread? x depth]
    simp only [Literal.toJson, Json.reread?, List.mapM_cons, List.mapM_nil]
    cases Json.reread? depth (.ofFloat x) with
    | none => rfl
    | some k => cases k <;> rfl

theorem reread?_toJson (i : Instruction) (depth : Nat) :
    (Json.reread? (depth + 2) i.toJson).bind ofJson? = i.reread? := by
  rw [toJson, Json.reread?, List.mapM_cons]
  cases i with
  | push literal =>
    rw [← ofJson?_reread?_literal literal depth]
    simp only [parts, List.mapM_cons, List.mapM_nil]
    cases Json.reread? (depth + 1) literal.toJson <;> rfl
  | load name => rfl
  | apply symbol arity =>
    rw [reread?, ← count?_reread? arity (depth + 1)]
    simp only [parts, List.mapM_cons, List.mapM_nil]
    cases Json.reread? (depth + 1) (.ofNat arity) with
    | none => rfl
    | some j =>
      change (j.count?.bind fun n => some (apply symbol n)) = j.count?.map (apply symbol)
      cases j.count? <;> rfl
  | collect count =>
    rw [reread?, ← count?_reread? count (depth + 1)]
    simp only [parts, List.mapM_cons, List.mapM_nil]
    cases Json.reread? (depth + 1) (.ofNat count) <;> rfl
  | call arity =>
    rw [reread?, ← count?_reread? arity (depth + 1)]
    simp only [parts, List.mapM_cons, List.mapM_nil]
    cases Json.reread? (depth + 1) (.ofNat arity) <;> rfl

/-- An instruction comes back as it was if its counts fit a word and its doubles come back. -/
theorem reread?_eq_some_iff (i : Instruction) :
    i.reread? = some i ↔
      (∀ n ∈ i.counts, n < Json.wordLimit) ∧ ∀ x ∈ i.numbers, Json.rereadFloat? x = some x := by
  cases i with
  | push literal =>
    cases literal with
    | number x => simp [reread?, counts, numbers]
    | text s => simp [reread?, counts, numbers]
  | load name => simp [reread?, counts, numbers]
  | apply symbol arity => simp [reread?, counts, numbers, Json.rereadCount?_eq_some_iff]
  | collect count => simp [reread?, counts, numbers, Json.rereadCount?_eq_some_iff]
  | call arity => simp [reread?, counts, numbers, Json.rereadCount?_eq_some_iff]

theorem reread?_of_not_isFinite {i : Instruction} {x : Float} (member : x ∈ i.numbers)
    (other : x.isFinite = false) : i.reread? = none := by
  cases i with
  | push literal =>
    cases literal with
    | number y =>
      obtain rfl := List.mem_singleton.1 member
      rw [reread?, Json.rereadFloat?_of_not_isFinite other]
      rfl
    | text s => cases member
  | load name => cases member
  | apply symbol arity => cases member
  | collect count => cases member
  | call arity => cases member

end Instruction

namespace Program

def numbers (p : Program) : List Float :=
  p.flatMap Instruction.numbers

def counts (p : Program) : List Nat :=
  p.flatMap Instruction.counts

theorem parse?_eq_mapM (p : Program) : parse? p.render = p.mapM Instruction.reread? := by
  have outer : Json.reread? (126 + 1) p.toJson =
      ((p.map Instruction.toJson).mapM (Json.reread? 126)).map Json.array := by
    rw [toJson, Json.reread?]
  have inner : ((p.map Instruction.toJson).mapM (Json.reread? 126)).bind
      (fun js => js.mapM Instruction.ofJson?) = p.mapM Instruction.reread? := by
    simp only [List.bind_mapM, List.mapM_map, Function.comp_def, Instruction.reread?_toJson]
  rw [parse?, render, Json.parse?_render, ← inner, Json.depthLimit, outer]
  cases (p.map Instruction.toJson).mapM (Json.reread? 126) <;> rfl

/-- A program comes back as it was if its counts fit a word and its doubles come back. -/
theorem parse?_eq_some_iff (p : Program) :
    parse? p.render = some p ↔ (∀ n ∈ p.counts, n < Json.wordLimit) ∧
      ∀ x ∈ p.numbers, Json.rereadFloat? x = some x := by
  rw [parse?_eq_mapM, List.mapM_eq_some_self_iff]
  simp only [Instruction.reread?_eq_some_iff, counts, numbers, List.mem_flatMap]
  constructor
  · intro back
    refine ⟨?_, ?_⟩
    · rintro n ⟨i, member, counted⟩
      exact (back i member).1 n counted
    · rintro x ⟨i, member, pushed⟩
      exact (back i member).2 x pushed
  · rintro ⟨words, digits⟩ i member
    exact ⟨fun n counted => words n ⟨i, member, counted⟩,
      fun x pushed => digits x ⟨i, member, pushed⟩⟩

theorem parse?_eq_none {p : Program} {x : Float} (member : x ∈ p.numbers)
    (other : x.isFinite = false) : parse? p.render = none := by
  obtain ⟨i, within, pushed⟩ := List.mem_flatMap.1 member
  rw [parse?_eq_mapM]
  exact List.mapM_eq_none_of_mem within (Instruction.reread?_of_not_isFinite pushed other)

theorem render_eq (p : Program) :
    p.render = "[" ++ ",".intercalate (p.map fun i => i.toJson.render) ++ "]" := by
  rw [render, toJson, Json.render_array, List.map_map]
  rfl

theorem render_of_not_isFinite {x : Float} (other : x.isFinite = false) :
    (Instruction.push (.number x)).toJson.render =
      "\x7b\"op\":\"push_literal\",\"value\":\x7b\"number\":null\x7d\x7d" := by
  simp only [Instruction.toJson, Instruction.operation, Instruction.parts, Literal.toJson,
    Json.ofFloat, other, Bool.false_eq_true, if_false]
  decide +kernel

/-- A program whose counts fit a word comes back from its text as it was, the sign of each zero
included, exactly if its doubles are finite and the digits of each are read as the same double. It
then has the value it had. Where a double is not finite, `null` stands in the text, and the text is
no program's. -/
theorem parse?_render_iff (p : Program) (words : ∀ n ∈ p.counts, n < Json.wordLimit) :
    (parse? p.render = some p ↔
      ∀ x ∈ p.numbers, x.isFinite ∧ Json.rereadFloat? x = some x) ∧
    ((∀ x ∈ p.numbers, x.isFinite ∧ Json.rereadFloat? x = some x) →
      ∀ {φ : Type} [Host φ] (config : Config φ),
        (parse? p.render).map config.run = some (config.run p)) ∧
    (Json.rereadFloat? 0.0 = some 0.0 ∧ Json.rereadFloat? (-0.0) = some (-0.0)) ∧
    p.render = "[" ++ ",".intercalate (p.map fun i => i.toJson.render) ++ "]" ∧
    (∀ x ∈ p.numbers, x.isFinite = false →
      (Instruction.push (.number x)).toJson.render =
        "\x7b\"op\":\"push_literal\",\"value\":\x7b\"number\":null\x7d\x7d" ∧
      parse? p.render = none) := by
  have back : parse? p.render = some p ↔
      ∀ x ∈ p.numbers, x.isFinite ∧ Json.rereadFloat? x = some x := by
    rw [parse?_eq_some_iff]
    constructor
    · rintro ⟨_, digits⟩ x member
      refine ⟨?_, digits x member⟩
      cases finite : x.isFinite with
      | true => rfl
      | false =>
        have lost := Json.rereadFloat?_of_not_isFinite finite
        rw [digits x member] at lost
        cases lost
    · intro digits
      exact ⟨words, fun x member => (digits x member).2⟩
  refine ⟨back, ?_, by decide +kernel, p.render_eq, ?_⟩
  · intro digits φ _ config
    rw [back.2 digits]
    rfl
  · intro x member other
    exact ⟨render_of_not_isFinite other, parse?_eq_none member other⟩

theorem parse?_render_iff_escaped :
    let p : Program := [.push (.number (-0.0)), .push (.number 0.1),
      .push (.text "\x22\\\n\x01\x7f😀"), .load "", .apply "→" 0xffffffffffffffff, .collect 0,
      .call 3]
    (∀ n ∈ p.counts, n < Json.wordLimit) ∧ parse? p.render = some p ∧
      parse? (render (.push (.number Decimal.infinity) :: p)) = none := by
  intro p
  have words : ∀ n ∈ p.counts, n < Json.wordLimit := by decide
  refine ⟨words, ?_, ?_⟩
  · apply (parse?_render_iff p words).1.2
    decide +kernel
  · have infinite := parse?_render_iff (.push (.number Decimal.infinity) :: p) words
    exact (infinite.2.2.2.2 Decimal.infinity List.mem_cons_self (by decide +kernel)).2

end Program

end Reckoner
