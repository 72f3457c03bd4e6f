import Reckoner.Proofs.Evaluation
import Reckoner.Proofs.Tree.Execution

set_option autoImplicit false

/-!
Evaluating a source while it is split and ordered, against compiling it and running the program.

The one pulls instructions through three stages and may stop before a fault further right; the other
has all instructions before it carries out the first. They agree on the value, on which fault comes
first and on what is carried out.
-/

namespace Reckoner

theorem Program.mapM_stream (program : Program) (fault : Option Fault) :
    (program.stream fault).mapM id = fault.elim (.ok program) .error := by
  induction program with
  | nil => cases fault <;> rfl
  | cons i rest ih =>
    have streamed : Program.stream (i :: rest) fault = .ok i :: Program.stream rest fault := rfl
    rw [streamed, List.mapM_cons, ih]
    cases fault <;> rfl

/-- A source compiles to what a fresh yard makes of its tokens. -/
theorem Config.compile_eq {φ : Type} (config : Config φ) (source : String) :
    let ran := Yard.empty.run config.precedence (Source.items (config.tokens source))
    config.compile source = ran.2.elim (.ok ran.1) .error := by
  intro ran
  have streamed : Source.items (config.instructions (config.tokens source)) =
      ran.1.stream ran.2 := Stage.items_new config.precedence (config.tokens source)
  rw [Config.compile, streamed, Program.mapM_stream]

theorem Config.compile_eq_error_iff {φ : Type} {config : Config φ} {source : String}
    {fault : Fault} :
    config.compile source = .error fault ↔
      (Yard.empty.run config.precedence (Source.items (config.tokens source))).2 = some fault := by
  rw [Config.compile_eq]
  cases (Yard.empty.run config.precedence (Source.items (config.tokens source))).2 <;> simp

namespace Machine

variable {φ : Type} [Host φ] {config : Config φ} {m next : Machine φ}

/-- Whether all of a program is carried out. -/
def Completes (config : Config φ) (m : Machine φ) (program : Program) : Prop :=
  ∃ last, m.advance config program = (last, none)

/-- Whether all of `front` is carried out, and `i` is not. -/
def FailsAt (config : Config φ) (m : Machine φ) (front : Program) (i : Instruction)
    (failure : Fault) : Prop :=
  ∃ next left, m.advance config front = (next, none) ∧ next.step config i = (left, some failure)

theorem advance_cons_of_ok {i : Instruction} (here : m.step config i = (next, none))
    (rest : Program) : m.advance config (i :: rest) = next.advance config rest := by
  simp only [advance, here]

/-- A program is carried out, or there is the first of its instructions that fails. -/
theorem completes_or_exists_failsAt (config : Config φ) (m : Machine φ) (program : Program) :
    m.Completes config program ∨ ∃ front i back failure,
      program = front ++ i :: back ∧ m.FailsAt config front i failure := by
  induction program generalizing m with
  | nil => exact .inl ⟨m, rfl⟩
  | cons i rest ih =>
    match here : m.step config i with
    | (left, some failure) => exact .inr ⟨[], i, rest, failure, rfl, m, left, rfl, here⟩
    | (next, none) =>
      rcases ih next with ⟨last, whole⟩ | ⟨front, j, back, failure, rfl, after, left, run, stop⟩
      · refine .inl ⟨last, ?_⟩
        rw [advance_cons_of_ok here, whole]
      · refine .inr ⟨i :: front, j, back, failure, rfl, after, left, ?_, stop⟩
        rw [advance_cons_of_ok here, run]

theorem FailsAt.runProgram {front : Program} {i : Instruction} {failure : Fault}
    (fails : m.FailsAt config front i failure) (back : Program) :
    m.runProgram config (front ++ i :: back) = .error failure := by
  obtain ⟨next, left, run, stop⟩ := fails
  rw [runProgram_eq_advance, advance_append_of_ok run]
  simp only [advance, stop]

section trace

variable {σ : Type} [Source σ (Except Fault Instruction)] {source : σ}

/-- What `runSource` comes to, after the instructions that it carries out, the failing one included. -/
def traceSource (config : Config φ) (m : Machine φ) (source : σ) :
    Program × Except Fault (Machine φ) × σ :=
  match _item : Source.pull source with
  | (none, rest) => ([], .ok m, rest)
  | (some (.error fault), rest) => ([], .error fault, rest)
  | (some (.ok i), rest) =>
    match m.step config i with
    | (next, none) =>
      let (later, outcome) := traceSource config next rest
      (i :: later, outcome)
    | (_, some fault) => ([i], .error fault, rest)
termination_by Source.size source
decreasing_by exact Source.size_lt_of_pull _item

theorem traceSource_of_ended {rest : σ} (ended : Source.pull source = (none, rest)) :
    m.traceSource config source = ([], .ok m, rest) := by
  rw [traceSource]
  split <;> rename_i item <;> rw [ended] at item <;> cases item
  rfl

theorem traceSource_of_fault {rest : σ} {fault : Fault}
    (failed : Source.pull source = (some (.error fault), rest)) :
    m.traceSource config source = ([], .error fault, rest) := by
  rw [traceSource]
  split <;> rename_i item <;> rw [failed] at item <;> cases item
  rfl

theorem traceSource_of_instruction {rest : σ} {i : Instruction}
    (pulled : Source.pull source = (some (.ok i), rest)) :
    m.traceSource config source =
      match m.step config i with
      | (next, none) =>
        (i :: (next.traceSource config rest).1, (next.traceSource config rest).2)
      | (_, some fault) => ([i], .error fault, rest) := by
  rw [traceSource]
  split <;> rename_i item <;> rw [pulled] at item <;> cases item
  rfl

theorem traceSource_snd (config : Config φ) (m : Machine φ) (source : σ) :
    (m.traceSource config source).2 = m.runSource config source := by
  induction size : Source.size source using Nat.strongRecOn generalizing m source with
  | _ n ih =>
    subst size
    match item : Source.pull source with
    | (none, rest) => rw [traceSource_of_ended item, runSource_of_ended config item]
    | (some (.error fault), rest) => rw [traceSource_of_fault item, runSource_of_fault config item]
    | (some (.ok i), rest) =>
      rw [traceSource_of_instruction item, runSource_of_instruction config item]
      match m.step config i with
      | (next, none) => exact ih _ (Source.size_lt_of_pull item) next rest rfl
      | (_, some fault) => rfl

/-- Instructions that all succeed are carried out as they are pulled, and nothing more is pulled for
them. -/
theorem traceSource_of_advance {front : Program} {later : List (Except Fault Instruction)}
    (items : Source.items source = front.map .ok ++ later)
    (run : m.advance config front = (next, none)) :
    ∃ rest, Source.items rest = later ∧ m.traceSource config source =
      (front ++ (next.traceSource config rest).1, (next.traceSource config rest).2) := by
  induction front generalizing m source with
  | nil =>
    obtain rfl : m = next := congrArg Prod.fst run
    exact ⟨source, items, rfl⟩
  | cons i others ih =>
    obtain ⟨rest, pulled, remaining⟩ := Source.exists_of_items_cons items
    match here : m.step config i with
    | (after, none) =>
      rw [advance_cons_of_ok here] at run
      obtain ⟨last, left, outcome⟩ := ih remaining run
      refine ⟨last, left, ?_⟩
      rw [traceSource_of_instruction pulled, here]
      simp only [outcome, List.cons_append]
    | (left, some failure) =>
      simp only [advance, here] at run
      cases run

variable {program front back : Program} {fault : Option Fault}

theorem traceSource_of_completes {last : Machine φ}
    (items : Source.items source = program.stream fault)
    (run : m.advance config program = (last, none)) :
    ∃ rest, m.traceSource config source = (program, fault.elim (.ok last) .error, rest) := by
  obtain ⟨left, remaining, trace⟩ := traceSource_of_advance items run
  cases fault with
  | none =>
    obtain ⟨rest, ended⟩ := Source.exists_of_items_nil remaining
    refine ⟨rest, ?_⟩
    rw [trace, traceSource_of_ended ended, List.append_nil]
    rfl
  | some fault =>
    obtain ⟨rest, failed, _⟩ := Source.exists_of_items_cons remaining
    refine ⟨rest, ?_⟩
    rw [trace, traceSource_of_fault failed, List.append_nil]
    rfl

/-- After the first instruction that fails nothing is pulled. -/
theorem traceSource_of_failsAt {i : Instruction} {failure : Fault}
    (items : Source.items source = Program.stream (front ++ i :: back) fault)
    (fails : m.FailsAt config front i failure) :
    ∃ rest, Source.items rest = back.stream fault ∧
      m.traceSource config source = (front ++ [i], .error failure, rest) := by
  obtain ⟨next, last, run, stop⟩ := fails
  have split : Source.items source = front.map .ok ++ .ok i :: back.stream fault := by
    rw [items, Program.stream_append]
    rfl
  obtain ⟨left, remaining, trace⟩ := traceSource_of_advance split run
  obtain ⟨rest, pulled, others⟩ := Source.exists_of_items_cons remaining
  refine ⟨rest, others, ?_⟩
  rw [trace, traceSource_of_instruction pulled, stop]

end trace

end Machine

/-- Evaluating a source refines compiling it and running the program: without a fault in the source
both come to the same, and otherwise the first instruction that fails decides, or the fault of the
source when none does. What is carried out are the instructions up to the first that fails, and
those behind it are not even pulled. -/
theorem Config.execute_refines_compile {φ : Type} [Host φ] (config : Config φ) (source : String) :
    let stream := config.instructions (config.tokens source)
    let carriedOut := (Machine.empty.traceSource config stream).1
    (Machine.empty.traceSource config stream).2 = Machine.empty.runSource config stream ∧
    ∃ (program : Program) (fault : Option Fault),
      Source.items stream = program.stream fault ∧
      config.compile source = fault.elim (.ok program) .error ∧
      (fault = none → config.execute source = config.run program) ∧
      ((Machine.empty.Completes config program ∧ carriedOut = program ∧
          ∀ f, fault = some f → config.execute source = .error f) ∨
        ∃ (front : Program) (i : Instruction) (back : Program) (failure : Fault),
          program = front ++ i :: back ∧ Machine.empty.FailsAt config front i failure ∧
          carriedOut = front ++ [i] ∧ config.execute source = .error failure ∧
          Source.items (config.evaluate stream).2 = back.stream fault) := by
  intro stream carriedOut
  have same := Machine.traceSource_snd config .empty stream
  have executed : config.execute source =
      (Machine.empty.traceSource config stream).2.1.map Machine.finish := by
    rw [same]
    rfl
  have left : (config.evaluate stream).2 = (Machine.empty.traceSource config stream).2.2 := by
    rw [same]
    rfl
  refine ⟨same, ?_⟩
  obtain ⟨program, fault, items⟩ : ∃ program fault, Source.items stream =
      Program.stream program fault := ⟨_, _, Stage.items_new _ _⟩
  have compiled : config.compile source = fault.elim (.ok program) .error := by
    rw [Config.compile, items, Program.mapM_stream]
  refine ⟨program, fault, items, compiled, ?_, ?_⟩
  · rintro rfl
    apply Config.execute_of_items
    rw [items, Program.stream]
    exact List.append_nil _
  · rcases Machine.completes_or_exists_failsAt config .empty program with
      ⟨last, run⟩ | ⟨front, i, back, failure, rfl, fails⟩
    · obtain ⟨rest, trace⟩ := Machine.traceSource_of_completes items run
      refine .inl ⟨⟨last, run⟩, congrArg Prod.fst trace, ?_⟩
      rintro f rfl
      rw [executed, trace]
      rfl
    · obtain ⟨rest, others, trace⟩ := Machine.traceSource_of_failsAt items fails
      refine .inr ⟨front, i, back, failure, rfl, fails, congrArg Prod.fst trace, ?_, ?_⟩
      · rw [executed, trace]
        rfl
      · rw [left, trace, others]

end Reckoner
