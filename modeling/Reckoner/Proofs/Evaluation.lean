import Reckoner.Evaluation
import Reckoner.Yard.Stream

set_option autoImplicit false

namespace Reckoner

namespace Source

variable {σ α : Type} [Source σ α] {s : σ}

theorem exists_of_items_nil (items : Source.items s = []) : ∃ rest, pull s = (none, rest) := by
  match item : pull s with
  | (none, rest) => exact ⟨rest, rfl⟩
  | (some a, rest) =>
    rw [items_of_pull_some item] at items
    cases items

theorem exists_of_items_cons {a : α} {others : List α} (items : Source.items s = a :: others) :
    ∃ rest, pull s = (some a, rest) ∧ Source.items rest = others := by
  match item : pull s with
  | (none, rest) =>
    rw [items_of_pull_none item] at items
    cases items
  | (some b, rest) =>
    rw [items_of_pull_some item] at items
    obtain ⟨rfl, rfl⟩ := List.cons.inj items
    exact ⟨rest, rfl, rfl⟩

end Source

theorem Program.stream_inj {p q : Program} {f g : Option Fault} :
    p.stream f = q.stream g ↔ p = q ∧ f = g := by
  constructor
  · intro same
    induction p generalizing q with
    | nil =>
      cases q with
      | nil =>
        cases f <;> cases g <;> cases same
        · exact ⟨rfl, rfl⟩
        · exact ⟨rfl, rfl⟩
      | cons j later => cases f <;> cases same
    | cons i rest ih =>
      cases q with
      | nil => cases g <;> cases same
      | cons j later =>
        obtain ⟨here, others⟩ := List.cons.inj same
        obtain ⟨rfl, rfl⟩ := ih others
        exact ⟨congrArg (· :: rest) (Except.ok.inj here), rfl⟩
  · rintro ⟨rfl, rfl⟩
    rfl

namespace Machine

variable {φ : Type} [Host φ] (config : Config φ) {σ : Type}
  [Source σ (Except Fault Instruction)]

theorem runSource_of_ended {source rest : σ} (ended : Source.pull source = (none, rest))
    (m : Machine φ) : m.runSource config source = (.ok m, rest) := by
  rw [runSource]
  split <;> rename_i item <;> rw [ended] at item <;> cases item
  rfl

theorem runSource_of_fault {source rest : σ} {fault : Fault}
    (failed : Source.pull source = (some (.error fault), rest)) (m : Machine φ) :
    m.runSource config source = (.error fault, rest) := by
  rw [runSource]
  split <;> rename_i item <;> rw [failed] at item <;> cases item
  rfl

theorem runSource_of_instruction {source rest : σ} {i : Instruction}
    (pulled : Source.pull source = (some (.ok i), rest)) (m : Machine φ) :
    m.runSource config source =
      match m.step config i with
      | (next, none) => next.runSource config rest
      | (_, some fault) => (.error fault, rest) := by
  rw [runSource]
  split <;> rename_i item <;> rw [pulled] at item <;> cases item
  rfl

/-- A stream comes to what its instructions come to, and to its own fault after all of them. -/
theorem runSource_of_items {source : σ} {program : Program} {fault : Option Fault}
    (items : Source.items source = program.stream fault) (m : Machine φ) :
    (m.runSource config source).1 =
      (m.runProgram config program).bind fun last => fault.elim (.ok last) .error := by
  induction program generalizing source m with
  | nil =>
    cases fault with
    | none =>
      obtain ⟨rest, ended⟩ := Source.exists_of_items_nil items
      rw [runSource_of_ended config ended]
      rfl
    | some fault =>
      obtain ⟨rest, failed, _⟩ := Source.exists_of_items_cons items
      rw [runSource_of_fault config failed]
      rfl
  | cons i others ih =>
    obtain ⟨rest, pulled, later⟩ := Source.exists_of_items_cons items
    rw [runSource_of_instruction config pulled, runProgram]
    match m.step config i with
    | (next, none) => exact ih later next
    | (_, some fault) => rfl

end Machine

theorem Config.execute_of_items {φ : Type} [Host φ] {config : Config φ} {source : String}
    {program : Program}
    (items : Source.items (config.instructions (config.tokens source)) = program.map .ok) :
    config.execute source = config.run program := by
  have streamed : Source.items (config.instructions (config.tokens source)) =
      program.stream none := by
    rw [items, Program.stream]
    exact (List.append_nil _).symm
  have outcome := Machine.runSource_of_items config streamed .empty
  simp only [Config.execute, Config.evaluate, Config.run, outcome]
  cases Machine.empty.runProgram config program <;> rfl

end Reckoner
