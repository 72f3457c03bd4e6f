import Reckoner.Proofs.Tree.Execution

set_option autoImplicit false

namespace Reckoner

namespace Instruction

/-- A machine takes as many values as an instruction asks for, or as many as a word holds. -/
theorem need_le_operands (i : Instruction) : i.need ≤ i.operands := by
  cases i with
  | call arity => exact Nat.min_le_left _ _
  | push l => exact Nat.le_refl _
  | load s => exact Nat.le_refl _
  | apply symbol arity => exact Nat.le_refl _
  | collect count => exact Nat.le_refl _

theorem need_eq_operands {i : Instruction} (fits : i.Fits) : i.need = i.operands := by
  cases i with
  | call arity => exact need_call fits
  | push l => rfl
  | load s => rfl
  | apply symbol arity => rfl
  | collect count => rfl

theorem depthAfter?_eq_some_iff {i : Instruction} {depth next : Nat} :
    i.depthAfter? depth = some next ↔ i.operands ≤ depth ∧ next = depth - i.operands + 1 := by
  unfold depthAfter?
  split
  · next enough => simp only [enough, true_and, Option.some.injEq, eq_comm]
  · next short => simp only [short, false_and, reduceCtorEq]

end Instruction

namespace Program

@[simp] theorem depthFrom?_nil (depth : Nat) : depthFrom? depth [] = some depth := rfl

theorem depthFrom?_cons {depth next : Nat} {i : Instruction}
    (step : i.depthAfter? depth = some next) (rest : Program) :
    depthFrom? depth (i :: rest) = depthFrom? next rest := by
  rw [depthFrom?, List.foldlM_cons, step]
  rfl

theorem exists_of_depthFrom?_cons {depth last : Nat} {i : Instruction} {rest : Program}
    (counted : depthFrom? depth (i :: rest) = some last) :
    ∃ next, i.depthAfter? depth = some next ∧ depthFrom? next rest = some last := by
  rw [depthFrom?, List.foldlM_cons] at counted
  exact Option.bind_eq_some_iff.1 counted

theorem depthFrom?_append {depth next : Nat} {first : Program}
    (front : depthFrom? depth first = some next) (second : Program) :
    depthFrom? depth (first ++ second) = depthFrom? next second := by
  rw [depthFrom?] at front
  rw [depthFrom?, List.foldlM_append, front]
  rfl

end Program

namespace Machine

variable {φ : Type} [Host φ] {config : Config φ}

omit [Host φ] in
theorem length_settle {m next : Machine φ} {work : Run (Value φ)}
    (settled : m.settle work = (next, none)) : next.stack.length = m.stack.length + 1 := by
  unfold settle at settled
  split at settled
  · obtain rfl := congrArg Prod.fst settled
    rfl
  · cases settled

/-- An instruction without a fault leaves one value in place of those it took. -/
theorem length_step {m next : Machine φ} {i : Instruction}
    (step : m.step config i = (next, none)) :
    next.stack.length = m.stack.length - i.need + 1 := by
  have dropped : (m.drop i.need).stack.length = m.stack.length - i.need := List.length_drop
  unfold Machine.step at step
  cases i with
  | push l =>
    obtain rfl := congrArg Prod.fst step
    rfl
  | load s =>
    obtain rfl := congrArg Prod.fst step
    rfl
  | apply symbol arity =>
    simp only at step
    split at step
    · cases step
    · split at step
      · cases step
      · rw [length_settle step, dropped]
  | collect count =>
    obtain rfl := congrArg Prod.fst step
    exact congrArg Nat.succ dropped
  | call arity => rw [length_settle step, dropped]

/-- Where the count goes through no instruction finds the stack too short. -/
theorem operands_le_of_advance {depth total : Nat} {m last : Machine φ} {front back : Program}
    {i : Instruction} (counted : Program.depthFrom? depth (front ++ i :: back) = some total)
    (enough : depth ≤ m.stack.length) (passed : m.advance config front = (last, none)) :
    i.operands ≤ last.stack.length := by
  induction front generalizing depth m with
  | nil =>
    obtain ⟨next, here, _⟩ := Program.exists_of_depthFrom?_cons counted
    obtain rfl : m = last := congrArg Prod.fst passed
    have asked := (Instruction.depthAfter?_eq_some_iff.1 here).1
    exact Nat.le_trans asked enough
  | cons j rest ih =>
    obtain ⟨next, here, later⟩ := Program.exists_of_depthFrom?_cons counted
    obtain ⟨asked, rfl⟩ := Instruction.depthAfter?_eq_some_iff.1 here
    simp only [advance] at passed
    split at passed
    · next between step =>
      have length := length_step step
      have taken := j.need_le_operands
      exact ih later (by omega) passed
    · cases passed

/-- A machine that carries a program out ends up with as many values as the count says. -/
theorem length_advance {depth : Nat} {m last : Machine φ} {program : Program}
    (fits : ∀ i ∈ program, i.Fits)
    (counted : Program.depthFrom? m.stack.length program = some depth)
    (passed : m.advance config program = (last, none)) : last.stack.length = depth := by
  induction program generalizing m with
  | nil =>
    obtain rfl : m = last := congrArg Prod.fst passed
    exact Option.some.inj counted
  | cons i rest ih =>
    obtain ⟨next, here, later⟩ := Program.exists_of_depthFrom?_cons counted
    obtain ⟨asked, rfl⟩ := Instruction.depthAfter?_eq_some_iff.1 here
    simp only [advance] at passed
    split at passed
    · next between step =>
      have length := length_step step
      rw [Instruction.need_eq_operands (fits i List.mem_cons_self)] at length
      rw [← length] at later
      exact ih (fun j member => fits j (List.mem_cons_of_mem i member)) later passed
    · cases passed

/-- An instruction finds its operands, and an operator made for one operand is given one, an operator
made for two is given two. -/
structure Supplied (config : Config φ) (m : Machine φ) (i : Instruction) : Prop where
  enough : i.operands ≤ m.stack.length
  unary : ∀ {symbol : String} {o : Operator φ} {f : Value φ → Run (Value φ)},
    i = .apply symbol 1 → config.operator? symbol = some o →
    o.implementation? 1 = some (.ofUnary f) →
    ∃ a below, m.stack = a :: below ∧ m.step config i = settle ⟨below, m.made⟩ (f a)
  binary : ∀ {symbol : String} {o : Operator φ} {f : Value φ → Value φ → Run (Value φ)},
    i = .apply symbol 2 → config.operator? symbol = some o →
    o.implementation? 2 = some (.ofBinary f) →
    ∃ a b below, m.stack = b :: a :: below ∧ m.step config i = settle ⟨below, m.made⟩ (f a b)

theorem Supplied.of_operands_le {m : Machine φ} {i : Instruction}
    (enough : i.operands ≤ m.stack.length) : Supplied config m i := by
  obtain ⟨stack, made⟩ := m
  constructor
  · exact enough
  · rintro symbol o f rfl known supported
    match stack, enough with
    | a :: below, _ =>
      refine ⟨a, below, rfl, ?_⟩
      rw [step_apply _ known supported]
      rfl
  · rintro symbol o f rfl known supported
    match stack, enough with
    | b :: a :: below, _ =>
      refine ⟨a, b, below, rfl, ?_⟩
      rw [step_apply _ known supported]
      rfl
    | [_], short => exact absurd short (Nat.not_succ_le_self 1)

end Machine

end Reckoner
