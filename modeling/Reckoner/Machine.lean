import Reckoner.Config
import Reckoner.Instruction.Basic
import Reckoner.Source

set_option autoImplicit false

/-!
The stack machine.

An instruction takes its operands off the stack and puts one value in their place. Where fewer lie
there than it needs it takes what there is. The operands of an instruction that fails are gone, but
an operator that does not exist, or not for so many operands, leaves them where they are.
-/

namespace Reckoner

structure Machine (φ : Type) where
  /-- The values, the top first. -/
  stack : List (Value φ)
  /-- How many callables the run has made. -/
  made : Nat

/-- The largest number that a 64-bit word holds. -/
def Instruction.maxNeed : Nat := 0xFFFFFFFFFFFFFFFF

/-- How many values an instruction takes off the stack, if they are there. -/
def Instruction.need : Instruction → Nat
  | push _ => 0
  | load _ => 0
  | apply _ arity => arity
  | collect count => count
  | call arity => min (arity + 1) maxNeed

namespace Machine

variable {φ : Type}

def empty : Machine φ := ⟨[], 0⟩

def push (m : Machine φ) (value : Value φ) : Machine φ :=
  { m with stack := value :: m.stack }

/-- The top values, the lowest of them first. -/
def top (m : Machine φ) (count : Nat) : List (Value φ) :=
  (m.stack.take count).reverse

def drop (m : Machine φ) (count : Nat) : Machine φ :=
  { m with stack := m.stack.drop count }

/-- Operands that were put on the stack one by one are taken off it in the same order. -/
theorem top_of_stack {m : Machine φ} {operands below : List (Value φ)}
    (stack : m.stack = operands.reverse ++ below) : m.top operands.length = operands := by
  rw [top, stack, List.take_left' (List.length_reverse), List.reverse_reverse]

def callWith [Host φ] : List (Value φ) → Run (Value φ)
  | [] => throw (.notCallable .missing)
  | .callable c :: operands => Host.call c.code operands
  | callee :: _ => throw (.notCallable callee.kind)

def ofLiteral : Literal → Value φ
  | .number x => .number x
  | .text s => .text s

/-- The outcome of a call on the machine that has given its operands away. -/
def settle (m : Machine φ) (work : Run (Value φ)) : Machine φ × Option Fault :=
  match work m.made with
  | .ok (value, made) => (⟨value :: m.stack, made⟩, none)
  | .error fault => (m, some fault)

/-- Carries out one instruction. The machine goes on after a fault. -/
def step [Host φ] (config : Config φ) (m : Machine φ) (i : Instruction) :
    Machine φ × Option Fault :=
  match i with
  | .push literal => (m.push (ofLiteral literal), none)
  | .load name => (m.push ((config.bound? name).getD .missing), none)
  | .apply symbol arity =>
    match config.operator? symbol with
    | none => (m, some (.unknownOperator symbol))
    | some operator =>
      match operator.implementation? arity with
      | none => (m, some (.unsupportedArity symbol arity))
      | some f => (m.drop i.need).settle (f (m.top i.need))
  | .collect _ => ((m.drop i.need).push (.list (m.top i.need)), none)
  | .call _ => (m.drop i.need).settle (callWith (m.top i.need))

theorem settle_ok {m : Machine φ} {work : Run (Value φ)} {value : Value φ} {made : Nat}
    (success : work m.made = .ok (value, made)) :
    m.settle work = (⟨value :: m.stack, made⟩, none) := by
  simp only [settle, success]

theorem settle_error {m : Machine φ} {work : Run (Value φ)} {fault : Fault}
    (failed : work m.made = .error fault) : m.settle work = (m, some fault) := by
  simp only [settle, failed]

@[simp] theorem step_load [Host φ] (config : Config φ) (m : Machine φ) (name : String) :
    m.step config (.load name) = (m.push ((config.bound? name).getD .missing), none) := rfl

@[simp] theorem step_collect [Host φ] (config : Config φ) (m : Machine φ) (count : Nat) :
    m.step config (.collect count) = ((m.drop count).push (.list (m.top count)), none) := rfl

theorem step_apply_unknown [Host φ] {config : Config φ} (m : Machine φ) {symbol : String}
    (arity : Nat) (unknown : config.operator? symbol = none) :
    m.step config (.apply symbol arity) = (m, some (.unknownOperator symbol)) := by
  simp only [step, unknown]

theorem step_apply_unsupported [Host φ] {config : Config φ} (m : Machine φ) {symbol : String}
    {arity : Nat} {operator : Operator φ} (known : config.operator? symbol = some operator)
    (unsupported : operator.implementation? arity = none) :
    m.step config (.apply symbol arity) = (m, some (.unsupportedArity symbol arity)) := by
  simp only [step, known, unsupported]

theorem step_apply [Host φ] {config : Config φ} (m : Machine φ) {symbol : String} {arity : Nat}
    {operator : Operator φ} {f : Implementation φ}
    (known : config.operator? symbol = some operator)
    (supported : operator.implementation? arity = some f) :
    m.step config (.apply symbol arity) = (m.drop arity).settle (f (m.top arity)) := by
  simp only [step, known, supported, Instruction.need]

theorem step_call [Host φ] (config : Config φ) (m : Machine φ) (arity : Nat) :
    m.step config (.call arity) =
      (m.drop (Instruction.call arity).need).settle
        (callWith (m.top (Instruction.call arity).need)) := rfl

/-- The value on top, or missing if there is none. -/
def finish (m : Machine φ) : Value φ :=
  m.stack.head?.getD .missing

def runProgram [Host φ] (config : Config φ) (m : Machine φ) :
    Program → Except Fault (Machine φ)
  | [] => .ok m
  | i :: rest =>
    match m.step config i with
    | (next, none) => next.runProgram config rest
    | (_, some fault) => .error fault

/-- Carries out instructions as they are pulled, up to the first fault among them or of theirs,
after which nothing is pulled. -/
def runSource [Host φ] (config : Config φ) {σ : Type} [Source σ (Except Fault Instruction)]
    (m : Machine φ) (source : σ) : Except Fault (Machine φ) × σ :=
  match _item : Source.pull source with
  | (none, rest) => (.ok m, rest)
  | (some (.error fault), rest) => (.error fault, rest)
  | (some (.ok i), rest) =>
    match m.step config i with
    | (next, none) => runSource config next rest
    | (_, some fault) => (.error fault, rest)
termination_by Source.size source
decreasing_by exact Source.size_lt_of_pull _item

end Machine

end Reckoner
