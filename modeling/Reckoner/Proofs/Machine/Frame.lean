import Reckoner.Proofs.Machine.Depth

set_option autoImplicit false

namespace Reckoner

variable {φ : Type} [Host φ]

/-- What an instruction makes of the values handed to it, the lowest first, or the fault for which it
takes none. -/
def Instruction.action (config : Config φ) : Instruction → Except Fault (Implementation φ)
  | push literal => .ok fun _ => return Machine.ofLiteral literal
  | load name => .ok fun _ => return (config.bound? name).getD .missing
  | apply symbol arity =>
    match config.operator? symbol with
    | none => .error (.unknownOperator symbol)
    | some operator =>
      match operator.implementation? arity with
      | none => .error (.unsupportedArity symbol arity)
      | some f => .ok f
  | collect _ => .ok fun values => return .list values
  | call _ => .ok Machine.callWith

namespace Machine

variable {config : Config φ}

/-- How many values an instruction takes: those it needs, or all there are. -/
def taken (config : Config φ) (m : Machine φ) (i : Instruction) : Nat :=
  match i.action config with
  | .ok _ => min i.need m.stack.length
  | .error _ => 0

def pushed? (config : Config φ) (m : Machine φ) (i : Instruction) : Option (Value φ) :=
  match m.step config i with
  | (next, none) => next.stack.head?
  | (_, some _) => none

/-- Carries out every instruction, whatever becomes of those before it. -/
def pursue (config : Config φ) (m : Machine φ) : Program → Machine φ
  | [] => m
  | i :: rest => (m.step config i).1.pursue config rest

def pushes (config : Config φ) (m : Machine φ) : Program → List (Value φ)
  | [] => []
  | i :: rest => (m.pushed? config i).toList ++ (m.step config i).1.pushes config rest

/-- How many values at the bottom of the stack no instruction takes. -/
def untouched (config : Config φ) (m : Machine φ) : Program → Nat
  | [] => m.stack.length
  | i :: rest =>
    min (m.stack.length - m.taken config i) ((m.step config i).1.untouched config rest)

/-- What a step does to the top of the stack, and that it does nothing else. -/
structure StepsOnTop (config : Config φ) (m : Machine φ) (i : Instruction) : Prop where
  /-- Without an operator for so many operands the stack stays. -/
  lacks : ∀ fault, i.action config = .error fault → m.step config i = (m, some fault)
  /-- What comes back takes the place of what was handed over. -/
  replaces : ∀ f value made, i.action config = .ok f →
    f (m.stack.take (min i.need m.stack.length)).reverse m.made = .ok (value, made) →
    m.step config i = (⟨value :: m.stack.drop (min i.need m.stack.length), made⟩, none)
  /-- What was handed over is gone if nothing comes back. -/
  removes : ∀ f fault, i.action config = .ok f →
    f (m.stack.take (min i.need m.stack.length)).reverse m.made = .error fault →
    m.step config i = (⟨m.stack.drop (min i.need m.stack.length), m.made⟩, some fault)

omit [Host φ] in
theorem top_min (m : Machine φ) (count : Nat) :
    (m.stack.take (min count m.stack.length)).reverse = m.top count := by
  rw [← List.take_eq_take_min, top]

omit [Host φ] in
theorem drop_min (m : Machine φ) (count : Nat) :
    m.stack.drop (min count m.stack.length) = (m.drop count).stack := by
  rcases Nat.le_total count m.stack.length with within | beyond
  · rw [Nat.min_eq_left within, drop]
  · rw [Nat.min_eq_right beyond, drop, List.drop_length, List.drop_of_length_le beyond]

theorem step_of_action {m : Machine φ} {i : Instruction} {f : Implementation φ}
    (acts : i.action config = .ok f) :
    m.step config i = (m.drop i.need).settle (f (m.top i.need)) := by
  cases i with
  | push literal =>
    obtain rfl := Except.ok.inj acts
    rfl
  | load name =>
    obtain rfl := Except.ok.inj acts
    rfl
  | collect count =>
    obtain rfl := Except.ok.inj acts
    rfl
  | call arity =>
    obtain rfl := Except.ok.inj acts
    rfl
  | apply symbol arity =>
    rw [Instruction.action] at acts
    cases known : config.operator? symbol with
    | none =>
      rw [known] at acts
      cases acts
    | some operator =>
      simp only [known] at acts
      cases supported : operator.implementation? arity with
      | none =>
        rw [supported] at acts
        cases acts
      | some g =>
        simp only [supported] at acts
        obtain rfl := Except.ok.inj acts
        exact step_apply m known supported

theorem step_of_action_error {m : Machine φ} {i : Instruction} {fault : Fault}
    (lacks : i.action config = .error fault) : m.step config i = (m, some fault) := by
  cases i with
  | apply symbol arity =>
    rw [Instruction.action] at lacks
    cases known : config.operator? symbol with
    | none =>
      rw [known] at lacks
      obtain rfl := Except.error.inj lacks
      exact step_apply_unknown m arity known
    | some operator =>
      simp only [known] at lacks
      cases supported : operator.implementation? arity with
      | none =>
        rw [supported] at lacks
        obtain rfl := Except.error.inj lacks
        exact step_apply_unsupported m known supported
      | some g =>
        rw [supported] at lacks
        cases lacks
  | _ => cases lacks

theorem stepsOnTop (config : Config φ) (m : Machine φ) (i : Instruction) :
    StepsOnTop config m i := by
  refine ⟨fun fault => step_of_action_error, ?_, ?_⟩
  · intro f value made acts success
    rw [top_min] at success
    rw [step_of_action acts, drop_min]
    exact settle_ok success
  · intro f fault acts failed
    rw [top_min] at failed
    rw [step_of_action acts, drop_min]
    exact settle_error failed

/-- After a step the stack is what the instruction has left under what it has put there. -/
theorem stack_step (config : Config φ) (m : Machine φ) (i : Instruction) :
    (m.step config i).1.stack =
      (m.pushed? config i).toList ++ m.stack.drop (m.taken config i) := by
  have onTop := stepsOnTop config m i
  cases acts : i.action config with
  | error fault => simp only [pushed?, taken, acts, onTop.lacks fault acts, List.drop_zero,
      Option.toList_none, List.nil_append]
  | ok f =>
    cases outcome : f (m.stack.take (min i.need m.stack.length)).reverse m.made with
    | ok result =>
      obtain ⟨value, made⟩ := result
      simp only [pushed?, taken, acts, onTop.replaces f value made acts outcome, List.head?_cons,
        Option.toList_some, List.singleton_append]
    | error fault =>
      simp only [pushed?, taken, acts, onTop.removes f fault acts outcome, Option.toList_none,
        List.nil_append]

theorem taken_le (config : Config φ) (m : Machine φ) (i : Instruction) :
    m.taken config i ≤ m.stack.length := by
  unfold taken
  split
  · exact Nat.min_le_right _ _
  · exact Nat.zero_le _

theorem untouched_le (config : Config φ) (m : Machine φ) (program : Program) :
    m.untouched config program ≤ m.stack.length := by
  cases program with
  | nil => exact Nat.le_refl _
  | cons i rest => exact Nat.le_trans (Nat.min_le_left _ _) (Nat.sub_le _ _)

/-- However a run goes on, its stack is the part that no instruction has reached, under some of the
values put there since, in the order in which that was done. -/
theorem exists_stack_pursue (config : Config φ) (m : Machine φ) (program : Program) :
    ∃ above, (m.pursue config program).stack =
        above ++ m.stack.drop (m.stack.length - m.untouched config program) ∧
      above.reverse.Sublist (m.pushes config program) := by
  induction program generalizing m with
  | nil =>
    refine ⟨[], ?_, List.nil_sublist _⟩
    rw [untouched, Nat.sub_self]
    rfl
  | cons i rest ih =>
    obtain ⟨above, stack, order⟩ := ih (m.step config i).1
    have here := stack_step config m i
    have within := taken_le config m i
    have reach := untouched_le config (m.step config i).1 rest
    have length := congrArg List.length here
    rw [List.length_append, List.length_drop] at length
    rw [pursue, pushes, untouched, stack]
    rcases Nat.lt_or_ge (m.stack.length - m.taken config i)
        ((m.step config i).1.untouched config rest) with shallower | deeper
    · -- No later instruction takes anything, so what this one has put there stays.
      have single : (m.pushed? config i).toList.length ≤ 1 := Option.length_toList_le
      have nothing : (m.step config i).1.stack.length -
          (m.step config i).1.untouched config rest = 0 := by omega
      have left : m.stack.length - (m.stack.length - m.taken config i) = m.taken config i := by
        omega
      refine ⟨above ++ (m.pushed? config i).toList, ?_, ?_⟩
      · rw [nothing, List.drop_zero, here, Nat.min_eq_left (Nat.le_of_lt shallower), left,
          List.append_assoc]
      · rw [List.reverse_append]
        have same : (m.pushed? config i).toList.reverse = (m.pushed? config i).toList := by
          cases m.pushed? config i <;> rfl
        rw [same]
        exact List.Sublist.append_left order _
    · -- A later instruction takes what this one has put there, or there is nothing.
      have gone : (m.pushed? config i).toList.length ≤ (m.step config i).1.stack.length -
          (m.step config i).1.untouched config rest := by omega
      have left : (m.step config i).1.stack.length - (m.step config i).1.untouched config rest -
          (m.pushed? config i).toList.length + m.taken config i =
          m.stack.length - (m.step config i).1.untouched config rest := by omega
      refine ⟨above, ?_, List.sublist_append_of_sublist_right order⟩
      rw [Nat.min_eq_right deeper]
      generalize (m.step config i).1.stack.length - _ = depth at gone left ⊢
      rw [here, List.drop_append, List.drop_of_length_le gone, List.nil_append, List.drop_drop,
        Nat.add_comm, left]

/-- A program that goes through is worth what its last instruction has put on the stack. -/
theorem exists_pushed_of_run {front : Program} {i : Instruction} {value : Value φ}
    (success : config.run (front ++ [i]) = .ok value) :
    ∃ before, empty.advance config front = (before, none) ∧
      before.pushed? config i = some value := by
  rw [Config.run, runProgram_eq_advance] at success
  rcases passed : empty.advance config front with ⟨before, _ | fault⟩
  · rw [advance_append_of_ok passed] at success
    refine ⟨before, rfl, ?_⟩
    rcases step : before.step config i with ⟨next, _ | fault⟩
    · simp only [advance, step] at success
      have finished : next.finish = value := Except.ok.inj success
      have filled := length_step step
      simp only [pushed?, step]
      cases stack : next.stack with
      | nil =>
        rw [stack] at filled
        cases filled
      | cons v below =>
        rw [finish, stack] at finished
        exact congrArg some finished
    · simp only [advance, step] at success
      cases success
  · rw [advance_append_of_fault passed] at success
    cases success

/-- An operator made for one operand is given the top value, or refuses for want of one. -/
theorem step_apply_unary {symbol : String} {o : Operator φ} {f : Value φ → Run (Value φ)}
    (known : config.operator? symbol = some o) (made : o.implementation? 1 = some (.ofUnary f))
    (m : Machine φ) :
    m.step config (.apply symbol 1) =
      match m.stack with
      | [] => (⟨[], m.made⟩, some (.argumentCount 1 0))
      | a :: below => settle ⟨below, m.made⟩ (f a) := by
  obtain ⟨stack, count⟩ := m
  rw [step_apply _ known made]
  cases stack <;> rfl

/-- An operator made for two operands is given the two top values, or refuses for want of them. -/
theorem step_apply_binary {symbol : String} {o : Operator φ}
    {f : Value φ → Value φ → Run (Value φ)} (known : config.operator? symbol = some o)
    (made : o.implementation? 2 = some (.ofBinary f)) (m : Machine φ) :
    m.step config (.apply symbol 2) =
      match m.stack with
      | [] => (⟨[], m.made⟩, some (.argumentCount 2 0))
      | [_] => (⟨[], m.made⟩, some (.argumentCount 2 1))
      | b :: a :: below => settle ⟨below, m.made⟩ (f a b) := by
  obtain ⟨stack, count⟩ := m
  rw [step_apply _ known made]
  match stack with
  | [] => rfl
  | [_] => rfl
  | b :: a :: below => rfl

/-- A call calls the lowest of the values it takes with the others. Only on an empty stack is there
none, and what is missing is no callable. -/
theorem step_call_lowest (config : Config φ) (m : Machine φ) (arity : Nat) :
    (m.stack = [] → m.step config (.call arity) = (m, some (.notCallable .missing))) ∧
    ∀ callee operands, m.top (Instruction.call arity).need = callee :: operands →
      (∀ c, callee = .callable c → m.step config (.call arity) =
        (m.drop (Instruction.call arity).need).settle (Host.call c.code operands)) ∧
      (callee.kind ≠ .callable → m.step config (.call arity) =
        (m.drop (Instruction.call arity).need, some (.notCallable callee.kind))) := by
  refine ⟨?_, ?_⟩
  · intro vacant
    have nothing : m.top (Instruction.call arity).need = [] := by
      rw [top, vacant, List.take_nil, List.reverse_nil]
    have same : m.drop (Instruction.call arity).need = m := by
      obtain ⟨stack, made⟩ := m
      obtain rfl := vacant
      rw [drop, List.drop_nil]
    rw [step_call, nothing, same]
    exact settle_error rfl
  · intro callee operands handed
    rw [step_call, handed]
    refine ⟨?_, ?_⟩
    · rintro c rfl
      rfl
    · intro other
      cases callee with
      | callable c => exact absurd rfl other
      | _ => exact settle_error rfl

/-- A step replaces the top of the stack and does nothing else, also when it fails; of the values
handed to a call the lowest is called. So a run that goes on after its faults leaves what it has not
reached as it was, under values put there in order; one that goes through is worth what was put there
last; and an operator made for one operand or for two refuses exactly where the stack is too
short. -/
theorem step_frame (config : Config φ) (m : Machine φ) :
    (∀ i, StepsOnTop config m i) ∧
    (∀ arity, (m.stack = [] → m.step config (.call arity) = (m, some (.notCallable .missing))) ∧
      ∀ callee operands, m.top (Instruction.call arity).need = callee :: operands →
        (∀ c, callee = .callable c → m.step config (.call arity) =
          (m.drop (Instruction.call arity).need).settle (Host.call c.code operands)) ∧
        (callee.kind ≠ .callable → m.step config (.call arity) =
          (m.drop (Instruction.call arity).need, some (.notCallable callee.kind)))) ∧
    (∀ program, ∃ above,
      (m.pursue config program).stack =
        above ++ m.stack.drop (m.stack.length - m.untouched config program) ∧
      above.reverse.Sublist (m.pushes config program)) ∧
    (∀ front i value, config.run (front ++ [i]) = .ok value →
      ∃ before, empty.advance config front = (before, none) ∧
        before.pushed? config i = some value) ∧
    (∀ symbol o f, config.operator? symbol = some o → o.implementation? 1 = some (.ofUnary f) →
      m.step config (.apply symbol 1) =
        match m.stack with
        | [] => (⟨[], m.made⟩, some (.argumentCount 1 0))
        | a :: below => settle ⟨below, m.made⟩ (f a)) ∧
    ∀ symbol o f, config.operator? symbol = some o → o.implementation? 2 = some (.ofBinary f) →
      m.step config (.apply symbol 2) =
        match m.stack with
        | [] => (⟨[], m.made⟩, some (.argumentCount 2 0))
        | [_] => (⟨[], m.made⟩, some (.argumentCount 2 1))
        | b :: a :: below => settle ⟨below, m.made⟩ (f a b) := by
  refine ⟨stepsOnTop config m, step_call_lowest config m, exists_stack_pursue config m, ?_, ?_, ?_⟩
  · intro front i value success
    exact exists_pushed_of_run success
  · intro symbol o f known made
    exact step_apply_unary known made m
  · intro symbol o f known made
    exact step_apply_binary known made m

end Machine

end Reckoner
