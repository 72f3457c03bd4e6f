import Reckoner.Source
import Reckoner.Yard.Basic

set_option autoImplicit false

/-!
The yard between two streams: tokens are pulled from one side as instructions are pulled from the
other.

What a token sent on its way is handed out before the next token is pulled. The first fault, of
the tokens or of the yard, comes after the instructions before it and ends the stream; nothing is
pulled after it, nor after the end of the tokens.
-/

namespace Reckoner

namespace Yard

def Step.stack (s : Step) : List Entry :=
  match s.outcome with
  | .ok y => y.stack
  | .error _ => []

theorem length_flush (stack : List Entry) :
    (flush stack).1.length + (flush stack).2.length = stack.length := by
  induction stack with
  | nil => rfl
  | cons entry rest ih =>
    cases entry with
    | operator symbol arity =>
      simp only [flush, List.length_cons]
      omega
    | group start => simp [flush]
    | call start count => simp [flush]
    | array start count => simp [flush]

@[simp] theorem length_countOne (stack : List Entry) :
    (countOne stack).length = stack.length := by
  unfold countOne
  split <;> simp

theorem length_placeBinary_le (p : Precedence) (symbol : String) (stack : List Entry) :
    (placeBinary p symbol stack).program.length + (placeBinary p symbol stack).stack.length
      ≤ stack.length + 2 := by
  unfold placeBinary
  split
  · split
    all_goals
      simp only [proceed, Step.stack, List.length_nil, List.length_cons]
      omega
  · simp [proceed, Step.stack]

theorem length_acceptOperator_le (p : Precedence) (y : Yard) (symbol : String) :
    (acceptOperator p y symbol).program.length + (acceptOperator p y symbol).stack.length
      ≤ y.stack.length + 2 := by
  have flushed := length_flush y.stack
  unfold acceptOperator
  split
  · simp only [proceed, Step.stack, length_countOne]
    omega
  · split
    · exact length_placeBinary_le p symbol y.stack
    · simp [proceed, Step.stack]

theorem length_closeParen_le (y : Yard) (position : Nat) :
    (closeParen y position).program.length + (closeParen y position).stack.length
      ≤ y.stack.length + 2 := by
  have flushed := length_flush y.stack
  unfold closeParen
  simp only
  split
  · next h =>
    simp only [h, List.length_cons] at flushed
    simp only [proceed, Step.stack]
    omega
  · next h =>
    simp only [h, List.length_cons] at flushed
    simp only [proceed, Step.stack, List.length_append, List.length_singleton]
    omega
  · simp only [Step.stack, List.length_nil]
    omega

theorem length_closeBracket_le (y : Yard) (position : Nat) :
    (closeBracket y position).program.length + (closeBracket y position).stack.length
      ≤ y.stack.length + 2 := by
  have flushed := length_flush y.stack
  unfold closeBracket
  simp only
  split
  · next h =>
    simp only [h, List.length_cons] at flushed
    simp only [proceed, Step.stack, List.length_append, List.length_singleton]
    omega
  all_goals
    simp only [Step.stack, List.length_nil]
    omega

/-- A token adds at most two to what is sent on its way and what waits, taken together. -/
theorem length_accept_le (p : Precedence) (y : Yard) (t : Token) :
    (y.accept p t).program.length + (y.accept p t).stack.length ≤ y.stack.length + 2 := by
  unfold accept
  split
  case h_5 => exact length_acceptOperator_le p y t.raw
  case h_7 => exact length_closeParen_le y t.start
  case h_9 => exact length_closeBracket_le y t.start
  all_goals
    simp only [proceed, Step.stack, List.length_nil, List.length_cons]
    omega

theorem length_finish_le (y : Yard) :
    y.finish.1.length + y.finish.2.toList.length ≤ y.stack.length := by
  have flushed := length_flush y.stack
  unfold finish
  simp only
  split
  case h_4 =>
    simp only [Option.toList, List.length_nil]
    omega
  all_goals
    next h =>
      simp only [h, List.length_cons] at flushed
      simp only [Option.toList, List.length_cons, List.length_nil]
      omega

end Yard

/-- Tokens on one side, instructions on the other, and the yard between them. -/
structure Stage (σ : Type) where
  precedence : Precedence
  tokens : σ
  yard : Yard
  /-- Instructions that are on their way. -/
  queue : Program
  /-- The fault that comes after them. -/
  fault : Option Fault
  /-- Whether nothing more is pulled. -/
  done : Bool

namespace Stage

def new {σ : Type} (precedence : Precedence) (tokens : σ) : Stage σ :=
  ⟨precedence, tokens, .empty, [], none, false⟩

def deliver? {σ : Type} (s : Stage σ) : Option (Except Fault Instruction × Stage σ) :=
  match s.queue with
  | i :: rest => some (.ok i, { s with queue := rest })
  | [] => s.fault.map fun fault => (.error fault, { s with fault := none })

/-- Takes in what a pull was answered, be it a token, a fault or the end. -/
def take {σ : Type} (s : Stage σ) (answer : Option (Except Fault Token)) (rest : σ) : Stage σ :=
  match answer with
  | some (.ok token) =>
    match s.yard.accept s.precedence token with
    | ⟨program, .ok yard⟩ => { s with tokens := rest, yard := yard, queue := program }
    | ⟨program, .error fault⟩ =>
      ⟨s.precedence, rest, s.yard.unwind, program, some fault, true⟩
  | some (.error fault) => { s with tokens := rest, fault := some fault, done := true }
  | none => ⟨s.precedence, rest, s.yard.unwind, s.yard.finish.1, s.yard.finish.2, true⟩

variable {σ : Type}

theorem take_of_ok {s : Stage σ} {t : Token} {sent : Program} {next : Yard}
    (step : s.yard.accept s.precedence t = ⟨sent, .ok next⟩) (rest : σ) :
    s.take (some (.ok t)) rest = { s with tokens := rest, yard := next, queue := sent } := by
  simp only [take, step]

theorem take_of_error {s : Stage σ} {t : Token} {sent : Program} {fault : Fault}
    (step : s.yard.accept s.precedence t = ⟨sent, .error fault⟩) (rest : σ) :
    s.take (some (.ok t)) rest = ⟨s.precedence, rest, s.yard.unwind, sent, some fault, true⟩ := by
  simp only [take, step]

variable [Source σ (Except Fault Token)]

def feed (s : Stage σ) : Stage σ :=
  let (answer, rest) := Source.pull s.tokens
  s.take answer rest

theorem feed_eq {s : Stage σ} {answer : Option (Except Fault Token)} {rest : σ}
    (pulled : Source.pull s.tokens = (answer, rest)) : s.feed = s.take answer rest := by
  rw [feed, pulled]

def pulls (s : Stage σ) : Nat :=
  if s.done then 0 else Source.size s.tokens + 1

theorem pulls_feed_lt {s : Stage σ} (running : ¬ s.done) : s.feed.pulls < s.pulls := by
  simp only [Bool.not_eq_true] at running
  match pulled : Source.pull s.tokens with
  | (some (.ok token), rest) =>
    have smaller := Source.size_lt_of_pull pulled
    rw [feed_eq pulled]
    cases step : s.yard.accept s.precedence token with
    | mk sent outcome =>
      cases outcome with
      | ok next =>
        simp only [take_of_ok step, pulls, running]
        simpa using smaller
      | error fault => simp [take_of_error step, pulls, running]
  | (some (.error fault), rest) => simp [feed_eq pulled, take, pulls, running]
  | (none, rest) => simp [feed_eq pulled, take, pulls, running]

/-- The next instruction or fault. Tokens are pulled only while nothing is ready. -/
def next (s : Stage σ) : Option (Except Fault Instruction) × Stage σ :=
  match s.deliver? with
  | some (item, rest) => (some item, rest)
  | none => if s.done then (none, s) else next s.feed
termination_by s.pulls
decreasing_by
  next running => exact pulls_feed_lt running

/-- At least as many as the instructions and faults that may still come. -/
def size (s : Stage σ) : Nat :=
  s.queue.length + s.fault.toList.length
    + if s.done then 0 else s.yard.stack.length + 2 * Source.size s.tokens + 1

theorem size_deliver? {s rest : Stage σ} {item : Except Fault Instruction}
    (ready : s.deliver? = some (item, rest)) : rest.size < s.size := by
  unfold deliver? at ready
  split at ready
  · next h =>
    simp only [Option.some.injEq, Prod.mk.injEq] at ready
    obtain ⟨_, rfl⟩ := ready
    simp only [size, h, List.length_cons]
    omega
  · simp only [Option.map_eq_some_iff, Prod.mk.injEq] at ready
    obtain ⟨fault, h, _, rfl⟩ := ready
    simp only [size, h, Option.toList, List.length_cons, List.length_nil]
    omega

theorem size_feed_le {s : Stage σ} (running : ¬ s.done) (idle : s.deliver? = none) :
    s.feed.size ≤ s.size := by
  simp only [Bool.not_eq_true] at running
  have queue : s.queue = [] := by
    unfold deliver? at idle
    split at idle
    · simp at idle
    · assumption
  have fault : s.fault = none := by
    simpa [deliver?, queue] using idle
  match pulled : Source.pull s.tokens with
  | (some (.ok token), rest) =>
    have smaller := Source.size_lt_of_pull pulled
    have bound := Yard.length_accept_le s.precedence s.yard token
    rw [feed_eq pulled]
    cases step : s.yard.accept s.precedence token with
    | mk sent outcome =>
      rw [step] at bound
      cases outcome with
      | ok next =>
        simp only [Yard.Step.stack] at bound
        simp only [take_of_ok step, size, queue, fault, running, Option.toList, List.length_nil]
        simp only [Bool.false_eq_true, if_false]
        omega
      | error raised =>
        simp only [Yard.Step.stack, List.length_nil] at bound
        simp only [take_of_error step, size, queue, fault, running, Option.toList,
          List.length_nil, List.length_cons]
        simp only [Bool.false_eq_true, if_false, if_true]
        omega
  | (some (.error fault), rest) =>
    rw [feed_eq pulled]
    simp only [take, size, queue, running, Option.toList, List.length_nil, List.length_cons]
    simp only [Bool.false_eq_true, if_false, if_true]
    omega
  | (none, rest) =>
    have bound := Yard.length_finish_le s.yard
    rw [feed_eq pulled]
    simp only [take, size, queue, fault, running, List.length_nil]
    simp only [Bool.false_eq_true, if_false, if_true]
    omega

theorem size_next {s : Stage σ} {item : Except Fault Instruction} (yielded : s.next.1 = some item) :
    s.next.2.size < s.size := by
  fun_induction next s with
  | case1 s other rest ready => exact size_deliver? ready
  | case2 s idle done => simp at yielded
  | case3 s idle running ih =>
    exact Nat.lt_of_lt_of_le (ih yielded) (size_feed_le running idle)

end Stage

instance {σ : Type} [Source σ (Except Fault Token)] :
    Source (Stage σ) (Except Fault Instruction) where
  pull := Stage.next
  size := Stage.size
  size_pull := Stage.size_next

end Reckoner
