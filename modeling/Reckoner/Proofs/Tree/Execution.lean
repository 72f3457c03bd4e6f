import Reckoner.Evaluation
import Reckoner.Proofs.Tree.Decoding

set_option autoImplicit false

/-!
Running the program of a tree gives the value of the tree.

`Turns` says what a program does to the values on top of a stack, whatever lies below them. It
composes as the work on values does, so the program of a tree is followed part by part.
-/

namespace Reckoner

namespace Run

variable {α β : Type} {work : Run α} {next : α → Run β} {made after : Nat}

theorem bind_of_ok {a : α} (success : work made = .ok (a, after)) :
    (work >>= next) made = next a after := by
  change (work made).bind (fun result => next result.1 result.2) = _
  rw [success]
  rfl

theorem bind_of_error {fault : Fault} (failed : work made = .error fault) :
    (work >>= next) made = .error fault := by
  change (work made).bind (fun result => next result.1 result.2) = _
  rw [failed]
  rfl

theorem exists_of_bind_ok {b : β} (success : (work >>= next) made = .ok (b, after)) :
    ∃ a between, work made = .ok (a, between) ∧ next a between = .ok (b, after) := by
  cases first : work made with
  | error fault =>
    rw [bind_of_error first] at success
    cases success
  | ok result =>
    rw [bind_of_ok first] at success
    exact ⟨result.1, result.2, rfl, success⟩

theorem error_of_bind_error {fault : Fault} (failed : (work >>= next) made = .error fault) :
    work made = .error fault ∨
      ∃ a between, work made = .ok (a, between) ∧ next a between = .error fault := by
  cases first : work made with
  | error reason =>
    rw [bind_of_error first] at failed
    obtain rfl := Except.error.inj failed
    exact Or.inl rfl
  | ok result =>
    rw [bind_of_ok first] at failed
    exact Or.inr ⟨result.1, result.2, rfl, failed⟩

theorem of_pure_ok {a b : α} (success : (pure a : Run α) made = .ok (b, after)) :
    a = b ∧ made = after := by
  cases success
  exact ⟨rfl, rfl⟩

end Run

namespace Machine

variable {φ : Type} [Host φ] {config : Config φ}

/-- Carries out a program up to the first fault, and keeps the machine as it is then. -/
def advance (config : Config φ) (m : Machine φ) : Program → Machine φ × Option Fault
  | [] => (m, none)
  | i :: rest =>
    match m.step config i with
    | (next, none) => next.advance config rest
    | (left, some fault) => (left, some fault)

theorem advance_append_of_ok {m next : Machine φ} {first : Program}
    (front : m.advance config first = (next, none)) (second : Program) :
    m.advance config (first ++ second) = next.advance config second := by
  induction first generalizing m with
  | nil =>
    obtain rfl : m = next := congrArg Prod.fst front
    rfl
  | cons i rest ih =>
    simp only [advance] at front
    simp only [List.cons_append, advance]
    split at front
    · exact ih front
    · cases front

theorem advance_append_of_fault {m left : Machine φ} {first : Program} {fault : Fault}
    (front : m.advance config first = (left, some fault)) (second : Program) :
    m.advance config (first ++ second) = (left, some fault) := by
  induction first generalizing m with
  | nil => cases front
  | cons i rest ih =>
    simp only [advance] at front
    simp only [List.cons_append, advance]
    split at front
    · exact ih front
    · exact front

omit [Host φ] in
/-- What is left of a machine whose operands are taken off. -/
theorem drop_operands (operands below : List (Value φ)) (made : Nat) :
    (Machine.mk (operands.reverse ++ below) made).drop operands.length = ⟨below, made⟩ := by
  simp only [drop, List.drop_left' List.length_reverse]

theorem runProgram_eq_advance (m : Machine φ) (program : Program) :
    m.runProgram config program =
      match m.advance config program with
      | (last, none) => .ok last
      | (_, some fault) => .error fault := by
  induction program generalizing m with
  | nil => rfl
  | cons i rest ih =>
    simp only [runProgram, advance]
    match m.step config i with
    | (next, none) => exact ih next
    | (left, some fault) => rfl

/-- A program replaces the operands on top of a stack by what `work` yields, or ends in its fault.
What lies below the operands is neither looked at nor changed, with a fault or without. -/
structure Turns (config : Config φ) (program : Program) (operands : List (Value φ))
    (work : Run (List (Value φ))) : Prop where
  yields : ∀ {made after : Nat} {values : List (Value φ)}, work made = .ok (values, after) →
    ∀ below, advance config ⟨operands.reverse ++ below, made⟩ program =
      (⟨values.reverse ++ below, after⟩, none)
  faults : ∀ {made : Nat} {fault : Fault}, work made = .error fault →
    ∃ above after, ∀ below, advance config ⟨operands.reverse ++ below, made⟩ program =
      (⟨above ++ below, after⟩, some fault)

namespace Turns

variable {program first second : Program} {operands : List (Value φ)}
  {work : Run (List (Value φ))}

theorem bind {next : List (Value φ) → Run (List (Value φ))}
    (front : Turns config first operands work)
    (back : ∀ {made after values}, work made = .ok (values, after) →
      Turns config second values (next values)) :
    Turns config (first ++ second) operands (work >>= next) := by
  constructor
  · intro made last results success below
    obtain ⟨values, after, here, there⟩ := Run.exists_of_bind_ok success
    rw [advance_append_of_ok (front.yields here below), (back here).yields there]
  · intro made fault failed
    rcases Run.error_of_bind_error failed with here | ⟨values, between, here, there⟩
    · obtain ⟨above, after, stopped⟩ := front.faults here
      exact ⟨above, after, fun below => advance_append_of_fault (stopped below) second⟩
    · obtain ⟨above, after, stopped⟩ := (back here).faults there
      refine ⟨above, after, fun below => ?_⟩
      rw [advance_append_of_ok (front.yields here below), stopped]

theorem frame (turns : Turns config program [] work) (kept : List (Value φ)) :
    Turns config program kept (do return kept ++ (← work)) := by
  constructor
  · intro made after results success below
    obtain ⟨values, between, here, there⟩ := Run.exists_of_bind_ok success
    obtain ⟨rfl, rfl⟩ := Run.of_pure_ok there
    have shifted := turns.yields here (kept.reverse ++ below)
    rw [List.reverse_append, List.append_assoc]
    exact shifted
  · intro made fault failed
    rcases Run.error_of_bind_error failed with here | ⟨values, between, here, there⟩
    · obtain ⟨above, after, stopped⟩ := turns.faults here
      refine ⟨above ++ kept.reverse, after, fun below => ?_⟩
      rw [List.append_assoc]
      exact stopped (kept.reverse ++ below)
    · cases there

/-- An instruction whose operands are taken off before its work settles. -/
theorem of_settle {i : Instruction} {f : Run (Value φ)}
    (step : ∀ below made, Machine.step config ⟨operands.reverse ++ below, made⟩ i =
      Machine.settle ⟨below, made⟩ f) :
    Turns config [i] operands (do return [← f]) := by
  constructor
  · intro made after results success below
    obtain ⟨value, between, here, there⟩ := Run.exists_of_bind_ok success
    obtain ⟨rfl, rfl⟩ := Run.of_pure_ok there
    have settled := settle_ok (m := ⟨below, made⟩) here
    simp only [advance, step, settled]
    rfl
  · intro made fault failed
    rcases Run.error_of_bind_error failed with here | ⟨value, between, here, there⟩
    · refine ⟨[], made, fun below => ?_⟩
      have settled := settle_error (m := ⟨below, made⟩) here
      simp only [advance, step, settled]
      rfl
    · cases there

/-- An instruction that fails with its operands still on the stack. -/
theorem of_fault {i : Instruction} {fault : Fault}
    (step : ∀ m : Machine φ, m.step config i = (m, some fault)) :
    Turns config [i] operands (throw fault) := by
  constructor
  · intro made after results success
    cases success
  · intro made reason failed
    obtain rfl := Except.error.inj failed
    refine ⟨operands.reverse, made, fun below => ?_⟩
    simp only [advance, step]

theorem push (config : Config φ) (l : Literal) :
    Turns config [.push l] [] (return [ofLiteral l]) :=
  of_settle (f := pure (ofLiteral l)) fun _ _ => rfl

theorem load (config : Config φ) (s : String) :
    Turns config [.load s] [] (return [(config.bound? s).getD .missing]) :=
  of_settle (f := pure ((config.bound? s).getD .missing)) fun _ _ => rfl

theorem apply (config : Config φ) (symbol : String) (values : List (Value φ)) :
    Turns config [.apply symbol values.length] values
      (do return [← Tree.applied config symbol values]) := by
  unfold Tree.applied
  cases known : config.operator? symbol with
  | none => exact of_fault fun m => step_apply_unknown m values.length known
  | some operator =>
    cases supported : operator.implementation? values.length with
    | none =>
      simp only [supported]
      exact of_fault fun m => step_apply_unsupported m known supported
    | some f =>
      simp only [supported]
      apply of_settle
      intro below made
      rw [step_apply _ known supported, top_of_stack rfl, drop_operands]

theorem collect (config : Config φ) (values : List (Value φ)) :
    Turns config [.collect values.length] values (return [.list values]) := by
  apply of_settle (f := pure (.list values))
  intro below made
  rw [step_collect, top_of_stack rfl, drop_operands]
  rfl

theorem call (config : Config φ) {arity : Nat} {group : List (Value φ)}
    (length : group.length = arity + 1) (fits : (Instruction.call arity).Fits) :
    Turns config [.call arity] group (do return [← callWith group]) := by
  apply of_settle
  intro below made
  rw [step_call, Instruction.need_call fits, ← length, top_of_stack rfl, drop_operands]

end Turns

end Machine

namespace Tree

open Machine (Turns)

variable {φ : Type} [Host φ] {config : Config φ}

theorem length_of_evalAll {trees : List Tree} {made after : Nat} {values : List (Value φ)}
    (success : evalAll config trees made = .ok (values, after)) :
    values.length = trees.length := by
  induction trees generalizing made after values with
  | nil =>
    obtain ⟨rfl, _⟩ := Run.of_pure_ok success
    rfl
  | cons t rest ih =>
    obtain ⟨value, between, _, later⟩ := Run.exists_of_bind_ok success
    obtain ⟨others, last, remaining, done⟩ := Run.exists_of_bind_ok later
    obtain ⟨rfl, _⟩ := Run.of_pure_ok done
    rw [List.length_cons, List.length_cons, ih remaining]

theorem eval_call (callee : Tree) (operands : List Tree) :
    eval config (call callee operands) =
      evalAll config (callee :: operands) >>= Machine.callWith := by
  simp only [eval, evalAll, bind_assoc, pure_bind]
  congr 1
  funext f
  congr 1
  funext values
  cases f <;> rfl

theorem turns_cons {t : Tree} {rest : List Tree}
    (front : Turns config t.program [] (do return [← t.eval config]))
    (others : Turns config (programs rest) [] (evalAll config rest)) :
    Turns config (t.program ++ programs rest) [] (evalAll config (t :: rest)) := by
  have whole : Turns config (t.program ++ programs rest) []
      ((do return [← t.eval config]) >>= fun values => do
        return values ++ (← evalAll config rest)) :=
    front.bind fun _ => others.frame _
  simpa only [evalAll, bind_assoc, pure_bind, List.singleton_append] using whole

mutual

/-- The program of a tree puts the value of the tree on the stack. -/
theorem turns_program (config : Config φ) (t : Tree) (fits : ∀ i ∈ t.program, i.Fits) :
    Turns config t.program [] (do return [← t.eval config]) := by
  cases t with
  | literal l => exact .push config l
  | name s => exact .load config s
  | apply symbol operands =>
    rw [program] at fits ⊢
    have parts := turns_programs config operands fun i member =>
      fits i (List.mem_append_left _ member)
    have whole : Turns config (programs operands ++ [.apply symbol operands.length]) []
        (evalAll config operands >>= fun values => do return [← applied config symbol values]) :=
      parts.bind fun success => by
        rw [← length_of_evalAll success]
        exact .apply config symbol _
    simpa only [eval, bind_assoc] using whole
  | collect items =>
    rw [program] at fits ⊢
    have parts := turns_programs config items fun i member =>
      fits i (List.mem_append_left _ member)
    have whole : Turns config (programs items ++ [.collect items.length]) []
        (evalAll config items >>= fun values => return [.list values]) :=
      parts.bind fun success => by
        rw [← length_of_evalAll success]
        exact .collect config _
    simpa only [eval, bind_assoc, pure_bind] using whole
  | call callee operands =>
    rw [program] at fits ⊢
    have front := turns_program config callee fun i member =>
      fits i (List.mem_append_left _ (List.mem_append_left _ member))
    have others := turns_programs config operands fun i member =>
      fits i (List.mem_append_left _ (List.mem_append_right _ member))
    have callFits : (Instruction.call operands.length).Fits := fits _ (by simp)
    have whole : Turns config (callee.program ++ programs operands ++ [.call operands.length]) []
        (evalAll config (callee :: operands) >>= fun group => do
          return [← Machine.callWith group]) :=
      (turns_cons front others).bind fun success =>
        .call config (length_of_evalAll success) callFits
    simpa only [eval_call, bind_assoc] using whole

theorem turns_programs (config : Config φ) (trees : List Tree)
    (fits : ∀ i ∈ programs trees, i.Fits) :
    Turns config (programs trees) [] (evalAll config trees) := by
  cases trees with
  | nil =>
    constructor
    · intro made after values success below
      obtain ⟨rfl, rfl⟩ := Run.of_pure_ok success
      rfl
    · intro made fault failed
      cases failed
  | cons t rest =>
    rw [programs] at fits ⊢
    have front := turns_program config t fun i member => fits i (List.mem_append_left _ member)
    have others := turns_programs config rest fun i member =>
      fits i (List.mem_append_right _ member)
    exact turns_cons front others

end

/-- A run over the programs of several trees is worth what the last of them is worth. -/
theorem run_programs (config : Config φ) (trees : List Tree)
    (fits : ∀ i ∈ programs trees, i.Fits) :
    config.run (programs trees) =
      (evalAll config trees 0).map fun (values, _) => values.getLast?.getD .missing := by
  have turns := turns_programs config trees fits
  rw [Config.run, Machine.runProgram_eq_advance]
  cases outcome : evalAll config trees 0 with
  | error fault =>
    obtain ⟨above, after, stopped⟩ := turns.faults outcome
    have ended := stopped []
    change Machine.advance config Machine.empty (programs trees) = _ at ended
    rw [ended]
    rfl
  | ok result =>
    obtain ⟨values, after⟩ := result
    have ended := turns.yields outcome []
    change Machine.advance config Machine.empty (programs trees) = _ at ended
    rw [ended]
    simp only [Except.map, Machine.finish, List.append_nil, List.head?_reverse]

/-- A run over the program of a tree is worth what the tree is worth. -/
theorem run_program (config : Config φ) (t : Tree) (fits : ∀ i ∈ t.program, i.Fits) :
    config.run t.program = (t.eval config 0).map Prod.fst := by
  have alone : programs [t] = t.program := by
    rw [programs, programs, List.append_nil]
  have value := run_programs config [t] (by rwa [alone])
  rw [alone, evalAll] at value
  rw [value]
  cases outcome : t.eval config 0 with
  | error fault =>
    rw [Run.bind_of_error outcome]
    rfl
  | ok result =>
    rw [Run.bind_of_ok outcome]
    rfl

end Tree

/-- A safe program is made of one list of trees only. Under every configuration it puts their values
in order on any stack, or stops with the first fault of their evaluation, and it is worth what the
last of them is worth. -/
theorem Program.DepthSafe.exists_trees {program : Program} (safe : program.DepthSafe) :
    ∃ trees : List Tree,
      (Tree.programs trees = program ∧ ∀ others, Tree.programs others = program → others = trees) ∧
      ∀ (φ : Type) [Host φ] (config : Config φ),
        Machine.Turns config program [] (Tree.evalAll config trees) ∧
        config.run program = (Tree.evalAll config trees 0).map fun (values, _) =>
          values.getLast?.getD .missing := by
  have same := Tree.programs_ofProgram safe
  refine ⟨Tree.ofProgram program, ⟨same, ?_⟩, ?_⟩
  · rintro others rfl
    exact (Tree.ofProgram_programs others).symm
  · intro φ _ config
    have fits : ∀ i ∈ Tree.programs (Tree.ofProgram program), i.Fits := by
      rw [same]
      exact safe.2
    have turns := Tree.turns_programs config (Tree.ofProgram program) fits
    have value := Tree.run_programs config (Tree.ofProgram program) fits
    rw [same] at turns value
    exact ⟨turns, value⟩

/-- The program of `f("a", -x)` and `[]` after it is made of those two trees. -/
theorem Program.exists_trees_call_collect :
    let program : Program :=
      [.load "f", .push (.text "a"), .load "x", .apply "-" 1, .call 2, .collect 0]
    let trees : List Tree :=
      [.call (.name "f") [.literal (.text "a"), .apply "-" [.name "x"]], .collect []]
    program.DepthSafe ∧ Tree.programs trees = program ∧
      ∀ (φ : Type) [Host φ] (config : Config φ),
        Machine.Turns config program [] (Tree.evalAll config trees) := by
  intro program trees
  have safe : program.DepthSafe := by decide
  obtain ⟨found, ⟨_, unique⟩, runs⟩ := safe.exists_trees
  obtain rfl : trees = found := unique trees rfl
  exact ⟨safe, rfl, fun φ _ config => (runs φ config).1⟩

end Reckoner
