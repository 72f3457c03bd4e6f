import Reckoner.Proofs.Culprit

set_option autoImplicit false

namespace Reckoner

namespace Machine

variable {φ : Type} [Host φ] {config : Config φ} {m left : Machine φ} {i : Instruction}
  {fault : Fault}

/-- What an instruction runs: a function with its operands, if there is one. -/
def work? (config : Config φ) (m : Machine φ) : Instruction → Option (Run (Value φ))
  | .apply symbol arity =>
    ((config.operator? symbol).bind fun o => o.implementation? arity).map fun f => f (m.top arity)
  | .call arity =>
    match m.top (Instruction.call arity).need with
    | .callable c :: operands => some (Host.call c.code operands)
    | _ => none
  | _ => none

/-- The faults that a machine raises itself, for want of a function to run. -/
inductive Lacks (config : Config φ) (m : Machine φ) : Instruction → Fault → Prop
  | operator {symbol : String} {arity : Nat} (unknown : config.operator? symbol = none) :
      Lacks config m (.apply symbol arity) (.unknownOperator symbol)
  | implementation {symbol : String} {arity : Nat} {o : Operator φ}
      (known : config.operator? symbol = some o) (unsupported : o.implementation? arity = none) :
      Lacks config m (.apply symbol arity) (.unsupportedArity symbol arity)
  | callable {arity : Nat} {kind : Kind}
      (other : ∀ c operands, m.top (Instruction.call arity).need ≠ .callable c :: operands) :
      Lacks config m (.call arity) (.notCallable kind)

/-- The faults of an instruction: its function answers with it, or there is no function. -/
inductive Raises (config : Config φ) (m : Machine φ) (i : Instruction) (fault : Fault) : Prop
  | within {work : Run (Value φ)} (runs : m.work? config i = some work)
      (answer : work m.made = .error fault)
  | itself (nothing : m.work? config i = none) (lacks : Lacks config m i fault)

omit [Host φ] in
theorem eq_error_of_settle {work : Run (Value φ)} (failed : m.settle work = (left, some fault)) :
    work m.made = .error fault := by
  unfold settle at failed
  split at failed
  · cases failed
  · next raised answer =>
    obtain rfl := Option.some.inj (Prod.mk.inj failed).2
    exact answer

theorem raises_of_step (failed : m.step config i = (left, some fault)) :
    m.Raises config i fault := by
  cases i with
  | push literal => cases failed
  | load name => cases failed
  | collect count => cases failed
  | apply symbol arity =>
    cases known : config.operator? symbol with
    | none =>
      rw [step_apply_unknown m arity known] at failed
      obtain rfl := Option.some.inj (Prod.mk.inj failed).2
      exact .itself (by rw [work?, known]; rfl) (.operator known)
    | some o =>
      cases supported : o.implementation? arity with
      | none =>
        rw [step_apply_unsupported m known supported] at failed
        obtain rfl := Option.some.inj (Prod.mk.inj failed).2
        have nothing : m.work? config (.apply symbol arity) = none := by
          rw [work?, known, Option.bind_some, supported]
          rfl
        exact .itself nothing (.implementation known supported)
      | some f =>
        rw [step_apply m known supported] at failed
        have runs : m.work? config (.apply symbol arity) = some (f (m.top arity)) := by
          rw [work?, known, Option.bind_some, supported]
          rfl
        have answer := eq_error_of_settle failed
        exact .within runs answer
  | call arity =>
    rw [step_call] at failed
    have answer := eq_error_of_settle failed
    cases operands : m.top (Instruction.call arity).need with
    | nil =>
      rw [operands] at answer
      obtain rfl := Except.error.inj answer
      refine .itself (by simp only [work?, operands]) (.callable fun c rest => ?_)
      rw [operands]
      exact nofun
    | cons callee rest =>
      rw [operands] at answer
      cases callee with
      | callable c =>
        have runs : m.work? config (.call arity) = some (Host.call c.code rest) := by
          simp only [work?, operands]
        exact .within runs answer
      | _ =>
        obtain rfl := Except.error.inj answer
        refine .itself (by simp only [work?, operands]) (.callable fun c rest => ?_)
        rw [operands]
        exact nofun

end Machine

namespace Config

variable {φ : Type} {config : Config φ} {source : String}

/-- An application in the instructions of a source is of an operator that the lexer has yielded. -/
theorem exists_token_of_mem_items {symbol : String} {arity : Nat}
    (sent : .ok (.apply symbol arity) ∈
      Source.items (config.instructions (config.tokens source))) :
    (∃ t, .ok t ∈ Source.items (config.tokens source) ∧ t.kind = .operator ∧ t.raw = symbol) ∧
      (arity = 1 ∨ arity = 2) := by
  have course := Yard.course_run config.precedence .empty (Source.items (config.tokens source))
  have streamed : Source.items (config.instructions (config.tokens source)) = _ :=
    Stage.items_new config.precedence (config.tokens source)
  rw [streamed, Program.stream, List.mem_append] at sent
  obtain ⟨kept, total, _⟩ := course.exists_kept Yard.tracks_empty
  rw [show Yard.waiting Yard.empty.stack = [] from rfl, List.append_nil] at total
  have asked : Instruction.apply symbol arity ∈
      Role.applications [] none
        ((Yard.empty.taken config.precedence (Source.items (config.tokens source))).filterMap
          Token.mark?) := by
    rw [← total.mem_iff, List.mem_append, List.mem_filter]
    simp only [List.mem_map, Except.ok.injEq, exists_eq_right, reduceCtorEq, and_false,
      exists_false, or_false] at sent
    exact .inl ⟨sent, rfl⟩
  obtain ⟨_, _, same, spelled, operands⟩ := Role.exists_of_mem_applications asked
  obtain ⟨rfl, rfl⟩ := Instruction.apply.inj same
  obtain ⟨t, member, marked⟩ := List.mem_filterMap.1 spelled
  obtain ⟨rest, items⟩ := course.exists_items
  refine ⟨⟨t, ?_, Token.mark?_eq_operator_iff.1 marked⟩, operands⟩
  rw [items]
  exact List.mem_append_left _ (List.mem_map_of_mem member)

theorem known_of_mem_tokens {t : Token} (member : .ok t ∈ Source.items (config.tokens source))
    (kind : t.kind = .operator) : t.raw ≠ "" ∧ t.raw ∈ config.operators := by
  obtain ⟨tokens, x, yields, within⟩ := Lexer.exists_yields_of_mem_items rfl member
  exact symbol_of_yields yields within kind

theorem known_of_mem_items {symbol : String} {arity : Nat}
    (sent : .ok (.apply symbol arity) ∈
      Source.items (config.instructions (config.tokens source))) :
    symbol ≠ "" ∧ symbol ∈ config.operators ∧ (arity = 1 ∨ arity = 2) := by
  obtain ⟨⟨t, member, kind, rfl⟩, operands⟩ := exists_token_of_mem_items sent
  have ⟨solid, known⟩ := known_of_mem_tokens member kind
  exact ⟨solid, known, operands⟩

/-- For the instructions of a source a machine may lack a callee, or an implementation for one operand
or two, but no operator. -/
theorem exists_of_lacks [Host φ] {m : Machine φ} {i : Instruction} {fault : Fault}
    (sent : .ok i ∈ Source.items (config.instructions (config.tokens source)))
    (lacks : m.Lacks config i fault) :
    (∃ kind, fault = .notCallable kind) ∨
      ∃ symbol arity, fault = .unsupportedArity symbol arity ∧ (arity = 1 ∨ arity = 2) := by
  cases lacks with
  | operator unknown =>
    have known := (known_of_mem_items sent).2.1
    rw [Std.TreeMap.mem_iff_isSome_getElem?, show config.operators[_]? = none from unknown] at known
    cases known
  | implementation known unsupported =>
    exact .inr ⟨_, _, rfl, (known_of_mem_items sent).2.2⟩
  | callable other => exact .inl ⟨_, rfl⟩

/-- Each application that is handed out for a source, before a fault or not, is of an operator of the
table, to one operand or two. A machine that carries such instructions out finds nothing to call, or
nothing for so many operands, but never no operator. Where evaluating the source fails otherwise, the
fault is that of the source or the answer of a function. -/
theorem instructions_known [Host φ] (config : Config φ) (source : String) :
    let items := Source.items (config.instructions (config.tokens source))
    (∀ symbol arity, .ok (.apply symbol arity) ∈ items →
      symbol ≠ "" ∧ symbol ∈ config.operators ∧ (arity = 1 ∨ arity = 2)) ∧
    (∀ (m : Machine φ) i fault, .ok i ∈ items → m.Lacks config i fault →
      (∃ kind, fault = .notCallable kind) ∨
        ∃ symbol arity, fault = .unsupportedArity symbol arity ∧ (arity = 1 ∨ arity = 2)) ∧
    ∀ fault, config.execute source = .error fault →
      (config.compile source = .error fault ∧ fault.position?.isSome) ∨
      ∃ front i m, (front ++ [i]).map .ok <+: items ∧
        Machine.empty.advance config front = (m, none) ∧ m.Raises config i fault := by
  intro items
  refine ⟨fun symbol arity => known_of_mem_items, fun m i fault => exists_of_lacks,
    fun fault failed => ?_⟩
  obtain ⟨program, own, streamed⟩ : ∃ program own, items = Program.stream program own :=
    ⟨_, _, Stage.items_new config.precedence (config.tokens source)⟩
  have outcome := Machine.runSource_of_items config streamed .empty
  rw [execute, evaluate] at failed
  simp only [outcome] at failed
  rcases Machine.completes_or_exists_failsAt config .empty program with
    ⟨last, run⟩ | ⟨front, i, back, failure, rfl, fails⟩
  · rw [Machine.runProgram_eq_advance, run] at failed
    cases own with
    | none => cases failed
    | some raised =>
      obtain rfl := Except.error.inj failed
      have compiled : config.compile source = .error raised := by
        change items.mapM id = _
        rw [streamed, Program.mapM_stream]
        rfl
      obtain ⟨place, culprit⟩ := culprit_of_compile compiled
      exact .inl ⟨compiled, by rw [culprit.position?]; rfl⟩
  · rw [fails.runProgram] at failed
    obtain rfl := Except.error.inj failed
    obtain ⟨m, left, run, stop⟩ := fails
    have sent : (front ++ [i]).map .ok <+: items :=
      ⟨Program.stream back own, by simp [streamed, Program.stream]⟩
    exact .inr ⟨front, i, m, sent, run, Machine.raises_of_step stop⟩

end Config

end Reckoner
