import Reckoner.Proofs.Evaluation
import Reckoner.Proofs.Machine.Depth
import Reckoner.Proofs.Token.Role
import Reckoner.Proofs.Yard.Counts
import Reckoner.Proofs.Yard.Delimiters
import Reckoner.Proofs.Yard.Feed

set_option autoImplicit false

namespace Reckoner

namespace Yard

def Entry.enclosure? : Entry → Option Enclosure
  | .operator _ _ => none
  | .group _ => some .group
  | .call _ _ => some .call
  | .array _ _ => some .array

def enclosures (stack : List Entry) : List Enclosure :=
  stack.filterMap Entry.enclosure?

/-- How many of the values below the latest operand an entry speaks for. -/
def Entry.held : Entry → Nat
  | .operator _ arity => arity - 1
  | .group _ => 0
  | .call _ count => count
  | .array _ count => count - 1

def held : List Entry → Nat
  | [] => 0
  | entry :: rest => entry.held + held rest

/-- Whether an operator has at least one operand, and an array that gets closed one item. -/
def Entry.Asks : Entry → Prop
  | .operator _ arity => 0 < arity
  | .group _ => True
  | .call _ _ => True
  | .array _ count => 0 < count

@[simp] theorem enclosures_flush (stack : List Entry) :
    enclosures (flush stack).2 = enclosures stack :=
  filterMap_flush (fun _ _ => rfl) stack

@[simp] theorem enclosures_countOne (stack : List Entry) :
    enclosures (countOne stack) = enclosures stack := by
  unfold countOne
  split <;> rfl

theorem separates_eq (stack : List Entry) :
    separates stack = (enclosures stack).head?.any Enclosure.separates := by
  induction stack with
  | nil => rfl
  | cons entry rest ih =>
    cases entry with
    | operator symbol arity => exact ih
    | group start => rfl
    | call start count => rfl
    | array start count => rfl

theorem asks_flush {stack : List Entry} (asks : ∀ e ∈ stack, e.Asks) :
    ∀ e ∈ (flush stack).2, e.Asks :=
  fun e member => asks e ((flush_suffix stack).mem member)

/-- The operators that a flush applies find their operands, the latest operand among them. -/
theorem depthFrom?_flush {stack : List Entry} (asks : ∀ e ∈ stack, e.Asks) (extra : Nat) :
    Program.depthFrom? (extra + held stack + 1) (flush stack).1 =
      some (extra + held (flush stack).2 + 1) := by
  induction stack with
  | nil => rfl
  | cons entry rest ih =>
    have others := ih fun e member => asks e (List.mem_cons_of_mem _ member)
    cases entry with
    | operator symbol arity =>
      have positive : 0 < arity := asks _ List.mem_cons_self
      have applied : (Instruction.apply symbol arity).depthAfter?
          (extra + held (.operator symbol arity :: rest) + 1) = some (extra + held rest + 1) := by
        rw [Instruction.depthAfter?_eq_some_iff]
        simp only [Instruction.operands, held, Entry.held]
        omega
      simp only [flush]
      rw [Program.depthFrom?_cons applied, others]
    | group start => rfl
    | call start count => rfl
    | array start count => rfl

/-- What a yard knows of the latest token, by the role of it. -/
def Follows (y : Yard) : Option Role → Prop
  | none => y = empty
  | some .operand => y.afterOperand = true
  | some .operator => y.last = some .operator
  | some .separator => y.last = some .operator
  | some (.opener .group) => ∃ start rest, y = ⟨.group start :: rest, some .openParen⟩
  | some (.opener .call) => ∃ start rest, y = ⟨.call start 1 :: rest, some .openParen⟩
  | some (.opener .array) => ∃ start rest, y = ⟨.array start 1 :: rest, some .openBracket⟩
  | some .closer => y.afterOperand = true

theorem Follows.afterOperand {y : Yard} {previous : Option Role} (follows : y.Follows previous) :
    y.afterOperand = previous.any Role.endsOperand := by
  match previous with
  | none =>
    obtain rfl := follows
    rfl
  | some .operand => exact follows
  | some .operator => rw [Yard.afterOperand, show y.last = _ from follows]; rfl
  | some .separator => rw [Yard.afterOperand, show y.last = _ from follows]; rfl
  | some (.opener .group) =>
    obtain ⟨start, rest, rfl⟩ := follows
    rfl
  | some (.opener .call) =>
    obtain ⟨start, rest, rfl⟩ := follows
    rfl
  | some (.opener .array) =>
    obtain ⟨start, rest, rfl⟩ := follows
    rfl
  | some .closer => exact follows

/-- The openers on the stack are what the next token lies within, and `previous` is the role of the
latest one. -/
structure Balanced (y : Yard) (outer : List Enclosure) (previous : Option Role) : Prop where
  enclosed : enclosures y.stack = outer
  asks : ∀ e ∈ y.stack, e.Asks
  follows : y.Follows previous

/-- How many values there are: those spoken for, the latest operand, and `extra` ones. -/
def depth (y : Yard) (extra : Nat) : Nat :=
  extra + held y.stack + if y.afterOperand then 1 else 0

/-- A step without a fault leads to a balanced yard, and what it sends changes the count from `before`
values to those of that yard. -/
def Step.Keeps (s : Step) (before extra : Nat) (outer : List Enclosure) (role : Role) : Prop :=
  ∀ next : Yard, s.outcome = .ok next →
    next.Balanced outer (some role) ∧ s.program.depthFrom? before = some (next.depth extra)

theorem Step.Keeps.of_proceed {kind : TokenKind} {program : Program} {stack : List Entry}
    {before extra : Nat} {outer : List Enclosure} {role : Role}
    (balanced : Balanced ⟨stack, some kind⟩ outer (some role))
    (counted : program.depthFrom? before = some (depth ⟨stack, some kind⟩ extra)) :
    (proceed kind program stack).Keeps before extra outer role := by
  intro next passed
  obtain rfl := Except.ok.inj passed
  exact ⟨balanced, counted⟩

variable {p : Precedence} {y : Yard} {outer : List Enclosure} {previous : Option Role}

theorem Step.Keeps.of_error {program : Program} {fault : Fault} {before extra : Nat}
    {outer : List Enclosure} {role : Role} :
    (Step.mk program (.error fault)).Keeps before extra outer role := by
  intro next passed
  cases passed

/-- An entry that speaks for the latest operand, or for nothing where there is none, may be pushed. -/
theorem Step.Keeps.of_push {kind : TokenKind} {entry : Entry} {inner : List Enclosure} {role : Role}
    {extra more : Nat} (next : Balanced ⟨entry :: y.stack, some kind⟩ inner (some role))
    (opens : role.endsOperand = false)
    (speaks : more + entry.held = extra + if y.afterOperand then 1 else 0) :
    (proceed kind [] (entry :: y.stack)).Keeps (y.depth extra) more inner role := by
  refine Step.Keeps.of_proceed next ?_
  rw [Program.depthFrom?_nil, depth, depth, next.follows.afterOperand, Option.any_some, opens]
  simp only [held, Bool.false_eq_true, if_false, Option.some.injEq]
  omega

/-- A flush after an operand applies the operators that wait down to the opener, which stays. -/
theorem Balanced.flushed (balanced : y.Balanced outer previous) (after : y.afterOperand = true)
    (extra : Nat) :
    Program.depthFrom? (y.depth extra) (flush y.stack).1 =
        some (extra + held (flush y.stack).2 + 1) ∧
      (∀ e ∈ (flush y.stack).2, e.Asks) ∧ enclosures (flush y.stack).2 = outer := by
  refine ⟨?_, asks_flush balanced.asks, ?_⟩
  · rw [depth, after, if_pos rfl, depthFrom?_flush balanced.asks]
  · rw [enclosures_flush, balanced.enclosed]

theorem last_ne_of_afterOperand {kind : TokenKind} (after : y.afterOperand = true)
    (other : kind.endsOperand = false) : y.last ≠ some kind := by
  intro last
  rw [afterOperand, last, Option.any_some, other] at after
  cases after

/-- A number, a string or a word is one more value, and an extra one right after an operand. -/
theorem Balanced.operand {kind : TokenKind} {i : Instruction} (balanced : y.Balanced outer previous)
    (ends : kind.endsOperand = true) (pushes : i.operands = 0) (extra : Nat) :
    (proceed kind [i] y.stack).Keeps (y.depth extra)
      (extra + Role.joined previous .operand) outer .operand := by
  have next : Balanced ⟨y.stack, some kind⟩ outer (some .operand) :=
    ⟨balanced.enclosed, balanced.asks, ends⟩
  have pushed : i.depthAfter? (y.depth extra) = some (y.depth extra + 1) := by
    rw [Instruction.depthAfter?_eq_some_iff, pushes]
    omega
  refine Step.Keeps.of_proceed next ?_
  rw [Program.depthFrom?_cons pushed, Program.depthFrom?_nil, depth, depth,
    balanced.follows.afterOperand, next.follows.afterOperand, Role.joined_of_starts previous rfl]
  simp only [Option.any_some, Role.endsOperand, if_true, Option.some.injEq]
  omega

/-- The operator on top stays below a new one: the latest operand is now the left one of that. -/
theorem Balanced.push_binary (balanced : y.Balanced outer previous) (after : y.afterOperand = true)
    (symbol : String) (extra : Nat) :
    (proceed .operator [] (.operator symbol 2 :: y.stack)).Keeps (y.depth extra) extra outer
      .operator := by
  have next : Balanced ⟨.operator symbol 2 :: y.stack, some .operator⟩ outer (some .operator) :=
    ⟨balanced.enclosed, List.forall_mem_cons.2 ⟨Nat.zero_lt_two, balanced.asks⟩, rfl⟩
  refine Step.Keeps.of_push next rfl ?_
  rw [after]
  rfl

theorem Balanced.binary (balanced : y.Balanced outer previous) (after : y.afterOperand = true)
    (symbol : String) (extra : Nat) :
    (placeBinary p symbol y.stack).Keeps (y.depth extra) extra outer .operator := by
  have waits := balanced.push_binary after symbol extra
  unfold placeBinary
  split
  · next waiting arity rest stack =>
    rw [stack] at waits
    split
    · have asks : ∀ e ∈ Entry.operator waiting arity :: rest, e.Asks := stack ▸ balanced.asks
      have positive : 0 < arity := (List.forall_mem_cons.1 asks).1
      have enclosed : enclosures (.operator waiting arity :: rest) = outer :=
        stack ▸ balanced.enclosed
      have next : Balanced ⟨.operator symbol 2 :: rest, some .operator⟩ outer (some .operator) :=
        ⟨enclosed, List.forall_mem_cons.2 ⟨Nat.zero_lt_two, (List.forall_mem_cons.1 asks).2⟩, rfl⟩
      have applied : (Instruction.apply waiting arity).depthAfter? (y.depth extra) =
          some (extra + held rest + 1) := by
        rw [Instruction.depthAfter?_eq_some_iff, depth, after, stack]
        simp only [Instruction.operands, held, Entry.held, if_true]
        omega
      refine Step.Keeps.of_proceed next ?_
      rw [Program.depthFrom?_cons applied, Program.depthFrom?_nil, depth,
        next.follows.afterOperand]
      simp only [Option.any_some, Role.endsOperand, held, Entry.held, Bool.false_eq_true, if_false,
        Option.some.injEq]
      omega
    · exact waits
  · exact waits

theorem Balanced.unary (balanced : y.Balanced outer previous) (after : y.afterOperand = false)
    (symbol : String) (extra : Nat) :
    (proceed .operator [] (.operator symbol 1 :: y.stack)).Keeps (y.depth extra) extra outer
      .operator := by
  have next : Balanced ⟨.operator symbol 1 :: y.stack, some .operator⟩ outer (some .operator) :=
    ⟨balanced.enclosed, List.forall_mem_cons.2 ⟨Nat.one_pos, balanced.asks⟩, rfl⟩
  refine Step.Keeps.of_push next rfl ?_
  rw [after]
  rfl

/-- What a comma separates, and what a delimiter closes, has come to its end, or the delimiter is
right after its opener. -/
theorem Follows.of_admits {role : Role} (follows : y.Follows previous) (ends : role.endsPart = true)
    (admits : ∀ before ∈ previous, before.admits role = true) :
    y.afterOperand = true ∨ (previous = none ∧ y = empty) ∨
      role ≠ .separator ∧
        ((∃ start rest, y = ⟨.call start 1 :: rest, some .openParen⟩) ∨
          ∃ start rest, y = ⟨.array start 1 :: rest, some .openBracket⟩) := by
  match previous with
  | none => exact Or.inr (Or.inl ⟨rfl, follows⟩)
  | some .operand => exact Or.inl follows
  | some .closer => exact Or.inl follows
  | some .operator => simpa [Role.admits, ends] using admits .operator rfl
  | some .separator => simpa [Role.admits, ends] using admits .separator rfl
  | some (.opener .group) => simpa [Role.admits, ends] using admits (.opener .group) rfl
  | some (.opener .call) =>
    have other := admits (.opener .call) rfl
    exact Or.inr (Or.inr ⟨by simpa [Role.admits] using other, Or.inl follows⟩)
  | some (.opener .array) =>
    have other := admits (.opener .array) rfl
    exact Or.inr (Or.inr ⟨by simpa [Role.admits] using other, Or.inr follows⟩)

/-- A comma that separates counts the operand or item that it ends. -/
theorem Balanced.separator (balanced : y.Balanced outer previous)
    (admits : ∀ before ∈ previous, before.admits .separator = true)
    (counted : separates y.stack = true) (extra : Nat) :
    (proceed .operator (flush y.stack).1 (countOne (flush y.stack).2)).Keeps (y.depth extra) extra
      outer .separator := by
  have after : y.afterOperand = true := by
    rcases balanced.follows.of_admits rfl admits with after | ⟨_, rfl⟩ | ⟨other, _⟩
    · exact after
    · cases counted
    · exact absurd rfl other
  obtain ⟨flushed, kept, enclosed⟩ := balanced.flushed after extra
  have inner : separates (flush y.stack).2 = true := by
    rw [separates_eq, enclosures_flush, ← separates_eq, counted]
  have opener : (∀ e ∈ countOne (flush y.stack).2, e.Asks) ∧
      held (countOne (flush y.stack).2) = held (flush y.stack).2 + 1 := by
    rcases flush_cases y.stack with front | ⟨start, rest, front⟩ | ⟨start, count, rest, front⟩ |
        ⟨start, count, rest, front⟩ <;> rw [front] at kept inner ⊢
    · cases inner
    · cases inner
    · refine ⟨List.forall_mem_cons.2 ⟨trivial, (List.forall_mem_cons.1 kept).2⟩, ?_⟩
      simp only [countOne, held, Entry.held]
      omega
    · have positive : 0 < count := (List.forall_mem_cons.1 kept).1
      refine ⟨List.forall_mem_cons.2 ⟨Nat.succ_pos count, (List.forall_mem_cons.1 kept).2⟩, ?_⟩
      simp only [countOne, held, Entry.held]
      omega
  have next : Balanced ⟨countOne (flush y.stack).2, some .operator⟩ outer (some .separator) := by
    refine ⟨?_, opener.1, rfl⟩
    rw [enclosures_countOne, enclosed]
  refine Step.Keeps.of_proceed next ?_
  rw [flushed, depth, next.follows.afterOperand, opener.2]
  rfl

theorem Balanced.openGroup (balanced : y.Balanced outer previous) (after : y.afterOperand = false)
    (start extra : Nat) :
    (proceed .openParen [] (.group start :: y.stack)).Keeps (y.depth extra) extra
      (.group :: outer) (.opener .group) := by
  have next : Balanced ⟨.group start :: y.stack, some .openParen⟩ (.group :: outer)
      (some (.opener .group)) :=
    ⟨congrArg (Enclosure.group :: ·) balanced.enclosed,
      List.forall_mem_cons.2 ⟨trivial, balanced.asks⟩, start, y.stack, rfl⟩
  refine Step.Keeps.of_push next rfl ?_
  rw [after]
  rfl

/-- The callee is spoken for until its call is closed. -/
theorem Balanced.openCall (balanced : y.Balanced outer previous) (after : y.afterOperand = true)
    (start extra : Nat) :
    (proceed .openParen [] (.call start 1 :: y.stack)).Keeps (y.depth extra) extra
      (.call :: outer) (.opener .call) := by
  have next : Balanced ⟨.call start 1 :: y.stack, some .openParen⟩ (.call :: outer)
      (some (.opener .call)) :=
    ⟨congrArg (Enclosure.call :: ·) balanced.enclosed,
      List.forall_mem_cons.2 ⟨trivial, balanced.asks⟩, start, y.stack, rfl⟩
  refine Step.Keeps.of_push next rfl ?_
  rw [after]
  rfl

theorem Balanced.openBracket (balanced : y.Balanced outer previous) (start extra : Nat) :
    (proceed .openBracket [] (.array start 1 :: y.stack)).Keeps (y.depth extra)
      (extra + Role.joined previous (.opener .array)) (.array :: outer) (.opener .array) := by
  have next : Balanced ⟨.array start 1 :: y.stack, some .openBracket⟩ (.array :: outer)
      (some (.opener .array)) :=
    ⟨congrArg (Enclosure.array :: ·) balanced.enclosed,
      List.forall_mem_cons.2 ⟨Nat.one_pos, balanced.asks⟩, start, y.stack, rfl⟩
  refine Step.Keeps.of_push next rfl ?_
  rw [Role.joined_of_starts previous rfl, balanced.follows.afterOperand]
  rfl

/-- A delimiter that closes leaves what was below its opener, with one more operand. -/
theorem close_keeps {kind : TokenKind} {program : Program} {rest : List Entry} {extra : Nat}
    (enclosed : enclosures rest = outer.tail) (asks : ∀ e ∈ rest, e.Asks)
    (ends : kind.endsOperand = true)
    (counted : program.depthFrom? (y.depth extra) = some (extra + held rest + 1)) :
    (proceed kind program rest).Keeps (y.depth extra) extra outer.tail .closer := by
  have next : Balanced ⟨rest, some kind⟩ outer.tail (some .closer) := ⟨enclosed, asks, ends⟩
  refine Step.Keeps.of_proceed next ?_
  rw [counted, depth, next.follows.afterOperand]
  rfl

/-- A `)` takes a group as it is, and calls a callee with the operands that were counted, or with none
right after the `(`. -/
theorem Balanced.closeParen (balanced : y.Balanced outer previous)
    (admits : ∀ before ∈ previous, before.admits .closer = true) (position extra : Nat) :
    (Yard.closeParen y position).Keeps (y.depth extra) extra outer.tail .closer := by
  rcases balanced.follows.of_admits rfl admits with after | ⟨_, rfl⟩ | ⟨_, ⟨start, rest, rfl⟩ |
      ⟨start, rest, rfl⟩⟩
  · obtain ⟨flushed, kept, enclosed⟩ := balanced.flushed after extra
    have operand : y.last ≠ some .openParen := last_ne_of_afterOperand after rfl
    simp only [Yard.closeParen]
    rcases flush_cases y.stack with front | ⟨start, rest, front⟩ | ⟨start, count, rest, front⟩ |
        ⟨start, count, rest, front⟩ <;> rw [front] at flushed kept enclosed ⊢
    · exact Step.Keeps.of_error
    · have others := (List.forall_mem_cons.1 kept).2
      refine close_keeps (congrArg List.tail enclosed) others rfl ?_
      rw [flushed]
      simp only [held, Entry.held, Nat.zero_add]
    · have others := (List.forall_mem_cons.1 kept).2
      refine close_keeps (congrArg List.tail enclosed) others rfl ?_
      have called : (Instruction.call count).depthAfter? (extra + (count + held rest) + 1) =
          some (extra + held rest + 1) := by
        rw [Instruction.depthAfter?_eq_some_iff]
        simp only [Instruction.operands]
        omega
      rw [if_neg operand, Program.depthFrom?_append flushed]
      exact Program.depthFrom?_cons called []
    · exact Step.Keeps.of_error
  · exact Step.Keeps.of_error
  · have others := (List.forall_mem_cons.1 balanced.asks).2
    refine close_keeps (congrArg List.tail balanced.enclosed) others rfl ?_
    have called : (Instruction.call 0).depthAfter? (extra + (1 + held rest)) =
        some (extra + held rest + 1) := by
      rw [Instruction.depthAfter?_eq_some_iff]
      simp only [Instruction.operands]
      omega
    exact Program.depthFrom?_cons called []
  · exact Step.Keeps.of_error

/-- A `]` collects the items that were counted, or none right after the `[`. -/
theorem Balanced.closeBracket (balanced : y.Balanced outer previous)
    (admits : ∀ before ∈ previous, before.admits .closer = true) (position extra : Nat) :
    (Yard.closeBracket y position).Keeps (y.depth extra) extra outer.tail .closer := by
  rcases balanced.follows.of_admits rfl admits with after | ⟨_, rfl⟩ | ⟨_, ⟨start, rest, rfl⟩ |
      ⟨start, rest, rfl⟩⟩
  · obtain ⟨flushed, kept, enclosed⟩ := balanced.flushed after extra
    have operand : y.last ≠ some .openBracket := last_ne_of_afterOperand after rfl
    simp only [Yard.closeBracket]
    rcases flush_cases y.stack with front | ⟨start, rest, front⟩ | ⟨start, count, rest, front⟩ |
        ⟨start, count, rest, front⟩ <;> rw [front] at flushed kept enclosed ⊢
    · exact Step.Keeps.of_error
    · exact Step.Keeps.of_error
    · exact Step.Keeps.of_error
    · have others := (List.forall_mem_cons.1 kept).2
      have positive : 0 < count := (List.forall_mem_cons.1 kept).1
      refine close_keeps (congrArg List.tail enclosed) others rfl ?_
      have collected : (Instruction.collect count).depthAfter?
          (extra + (count - 1 + held rest) + 1) = some (extra + held rest + 1) := by
        rw [Instruction.depthAfter?_eq_some_iff]
        simp only [Instruction.operands]
        omega
      rw [if_neg operand, Program.depthFrom?_append flushed]
      exact Program.depthFrom?_cons collected []
  · exact Step.Keeps.of_error
  · exact Step.Keeps.of_error
  · have others := (List.forall_mem_cons.1 balanced.asks).2
    refine close_keeps (congrArg List.tail balanced.enclosed) others rfl ?_
    have collected : (Instruction.collect 0).depthAfter? (extra + (1 - 1 + held rest)) =
        some (extra + held rest + 1) := by
      rw [Instruction.depthAfter?_eq_some_iff]
      simp only [Instruction.operands]
      omega
    exact Program.depthFrom?_cons collected []

theorem Balanced.acceptOperator {symbol : String} (balanced : y.Balanced outer previous)
    (admits : ∀ before ∈ previous,
      before.admits (Role.ofMark outer previous (.operator symbol)) = true) (extra : Nat) :
    (Yard.acceptOperator p y symbol).Keeps (y.depth extra) extra outer
      (Role.ofMark outer previous (.operator symbol)) := by
  have within : separates y.stack = outer.head?.any Enclosure.separates := by
    rw [separates_eq, balanced.enclosed]
  simp only [Role.ofMark, ← within] at admits ⊢
  unfold Yard.acceptOperator
  by_cases counted : symbol = "," ∧ separates y.stack = true
  · simp only [if_pos counted] at admits ⊢
    exact balanced.separator admits counted.2 extra
  · simp only [if_neg counted]
    cases after : y.afterOperand with
    | false => exact balanced.unary after symbol extra
    | true => exact balanced.binary after symbol extra

/-- A token keeps a yard balanced where it may stand, and a juxtaposition leaves one more value. -/
theorem Balanced.accept {t : Token} {m : Mark} (balanced : y.Balanced outer previous)
    (marked : t.mark? = some m)
    (admits : ∀ before ∈ previous, before.admits (Role.ofMark outer previous m) = true)
    (extra : Nat) :
    (y.accept p t).Keeps (y.depth extra) (extra + Role.joined previous (Role.ofMark outer previous m))
      ((Role.ofMark outer previous m).enclosing outer) (Role.ofMark outer previous m) := by
  rw [accept_of_mark marked]
  cases m with
  | number raw => exact balanced.operand rfl rfl extra
  | string raw => exact balanced.operand rfl rfl extra
  | word raw => exact balanced.operand rfl rfl extra
  | operator symbol =>
    have same : (Role.ofMark outer previous (.operator symbol)).enclosing outer = outer := by
      rw [Role.ofMark]
      split <;> rfl
    rw [Role.joined_of_not_starts previous (Role.startsOperand_operator ..), same]
    exact balanced.acceptOperator admits extra
  | openParen =>
    rw [Role.joined_of_not_starts previous (Role.startsOperand_openParen ..)]
    simp only [Role.ofMark, acceptMark, ← balanced.follows.afterOperand]
    cases after : y.afterOperand with
    | false => exact balanced.openGroup after t.start extra
    | true => exact balanced.openCall after t.start extra
  | closeParen =>
    rw [Role.joined_of_not_starts previous rfl]
    exact balanced.closeParen admits t.start extra
  | openBracket => exact balanced.openBracket t.start extra
  | closeBracket =>
    rw [Role.joined_of_not_starts previous rfl]
    exact balanced.closeBracket admits t.start extra

/-- At the end of a stream the operators that wait find their operands too. -/
theorem Balanced.finish {role : Role} {program : Program}
    (balanced : y.Balanced outer (some role)) (complete : role.wantsOperand = false)
    (ended : y.finish = (program, none)) (extra : Nat) :
    program.depthFrom? (y.depth extra) = some (extra + 1) := by
  have admits : ∀ before ∈ some role, before.admits .closer = true := by
    rintro before ⟨rfl⟩
    exact Role.admits_closer complete
  rcases balanced.follows.of_admits rfl admits with after | ⟨none, _⟩ | ⟨_, ⟨start, rest, rfl⟩ |
      ⟨start, rest, rfl⟩⟩
  · obtain ⟨flushed, _, _⟩ := balanced.flushed after extra
    simp only [Yard.finish] at ended
    rcases flush_cases y.stack with front | ⟨start, rest, front⟩ | ⟨start, count, rest, front⟩ |
        ⟨start, count, rest, front⟩ <;> rw [front] at flushed ended
    · obtain rfl := congrArg Prod.fst ended
      exact flushed
    · cases ended
    · cases ended
    · cases ended
  · cases none
  · cases ended
  · cases ended

/-- What a run over well-placed tokens sends asks for no value that is not there, and leaves one value
and one more for each juxtaposition. -/
theorem Balanced.depthFrom?_run {tokens : List Token} {program : Program}
    (balanced : y.Balanced outer previous)
    (nonempty : previous.toList ++ Role.ofMarks outer previous (tokens.filterMap Token.mark?) ≠ [])
    (placed : Role.WellPlaced
      (previous.toList ++ Role.ofMarks outer previous (tokens.filterMap Token.mark?)))
    (ran : y.run p (tokens.map .ok) = (program, none)) (extra : Nat) :
    program.depthFrom? (y.depth extra) =
      some (extra + 1 + Role.juxtapositions
        (previous.toList ++ Role.ofMarks outer previous (tokens.filterMap Token.mark?))) := by
  induction tokens generalizing y outer previous program extra with
  | nil =>
    cases previous with
    | none => exact absurd rfl nonempty
    | some role => exact balanced.finish (placed.last role rfl) ran extra
  | cons t rest ih =>
    cases marked : t.mark? with
    | none =>
      rw [List.filterMap_cons_none marked] at nonempty placed ⊢
      simp only [List.map_cons, run, accept_of_blank marked, List.nil_append] at ran
      exact ih balanced nonempty placed ran extra
    | some m =>
      rw [List.filterMap_cons_some marked] at placed ⊢
      have kept := balanced.accept (p := p) marked placed.admits extra
      simp only [List.map_cons, run] at ran
      cases step : y.accept p t with
      | mk sent outcome =>
        cases outcome with
        | error fault => simp [step] at ran
        | ok next =>
          rw [step] at kept ran
          obtain ⟨after, counted⟩ := kept next rfl
          obtain ⟨rfl, clean⟩ := Prod.mk.inj ran
          have remaining := ih after (List.cons_ne_nil _ _) placed.later (Prod.ext rfl clean)
            (extra + Role.joined previous (Role.ofMark outer previous m))
          rw [Program.depthFrom?_append counted, remaining, Option.some.injEq]
          simp only [Role.ofMarks, Role.juxtapositions_append, Option.toList_some,
            List.singleton_append]
          omega

theorem balanced_empty : empty.Balanced [] none :=
  ⟨rfl, nofun, rfl⟩

end Yard

/-- The program made of a well-placed stream never asks for more values than there are, and it leaves
one and one more for each juxtaposition. So under every configuration each instruction that a machine
comes to finds its operands; and a machine that carries the program out ends up with as many values
as that, if the stream is no longer than a 64-bit word can say. -/
theorem Config.depthFrom?_instructions {φ σ : Type} [Source σ (Except Fault Token)]
    (config : Config φ) {source : σ} {tokens : List Token} {program : Program}
    (yielded : Source.items source = tokens.map .ok)
    (ordered : Source.items (config.instructions source) = program.map .ok)
    (nonempty : Token.roles tokens ≠ []) (placed : Role.WellPlaced (Token.roles tokens)) :
    program.depthFrom? 0 = some (1 + Role.juxtapositions (Token.roles tokens)) ∧
    ∀ (ψ : Type) [Host ψ] (other : Config ψ),
      (∀ (front back : Program) (i : Instruction) (m : Machine ψ), program = front ++ i :: back →
        Machine.empty.advance other front = (m, none) → m.Supplied other i) ∧
      ∀ last : Machine ψ, tokens.length ≤ Instruction.maxNeed →
        Machine.empty.advance other program = (last, none) →
        last.stack.length = 1 + Role.juxtapositions (Token.roles tokens) := by
  have streamed : program.stream none = (Yard.empty.run config.precedence (tokens.map .ok)).1.stream
      (Yard.empty.run config.precedence (tokens.map .ok)).2 := by
    have whole := Stage.items_new config.precedence source
    rw [yielded] at whole
    rw [← whole, Program.stream]
    exact (List.append_nil _).trans ordered.symm
  obtain ⟨sent, clean⟩ := Program.stream_inj.1 streamed
  have counted : program.depthFrom? 0 = some (1 + Role.juxtapositions (Token.roles tokens)) := by
    have ran : Yard.empty.run config.precedence (tokens.map .ok) = (program, none) :=
      Prod.ext sent.symm clean.symm
    have whole := Yard.balanced_empty.depthFrom?_run nonempty placed ran 0
    rw [Nat.zero_add] at whole
    exact whole
  refine ⟨counted, ?_⟩
  intro ψ _ other
  constructor
  · intro front back i m split passed
    apply Machine.Supplied.of_operands_le
    rw [split] at counted
    exact Machine.operands_le_of_advance counted (Nat.zero_le _) passed
  · intro last size passed
    have fits : ∀ i ∈ program, i.Fits := by
      rw [sent]
      apply Yard.fits_run
      rwa [List.length_map]
    exact Machine.length_advance (m := .empty) fits counted passed

/-- `f(-a, [b c], g()) d` has two juxtapositions, one of them within an array. -/
theorem Config.depthFrom?_instructions_juxtaposed :
    let tokens : List Token :=
      [⟨.word, "f", 0⟩, ⟨.openParen, "(", 1⟩, ⟨.operator, "-", 2⟩, ⟨.word, "a", 3⟩,
       ⟨.operator, ",", 4⟩, ⟨.openBracket, "[", 6⟩, ⟨.word, "b", 7⟩, ⟨.whitespace, " ", 8⟩,
       ⟨.word, "c", 9⟩, ⟨.closeBracket, "]", 10⟩, ⟨.operator, ",", 11⟩, ⟨.word, "g", 13⟩,
       ⟨.openParen, "(", 14⟩, ⟨.closeParen, ")", 15⟩, ⟨.closeParen, ")", 16⟩, ⟨.word, "d", 18⟩]
    let program : Program :=
      [.load "f", .load "a", .apply "-" 1, .load "b", .load "c", .collect 1, .load "g", .call 0,
       .call 3, .load "d"]
    (Token.roles tokens ≠ [] ∧ Role.WellPlaced (Token.roles tokens) ∧
      Source.items ((Config.standard : Config Unit).instructions
        (tokens.map (.ok : Token → Except Fault Token))) = program.map .ok) ∧
    program.depthFrom? 0 = some 3 ∧
    ∀ (ψ : Type) [Host ψ] (other : Config ψ) (last : Machine ψ),
      Machine.empty.advance other program = (last, none) → last.stack.length = 3 := by
  intro tokens program
  have nonempty : Token.roles tokens ≠ [] := by decide
  have placed : Role.WellPlaced (Token.roles tokens) := ⟨by decide, by decide⟩
  have ordered : Source.items ((Config.standard : Config Unit).instructions
      (tokens.map (.ok : Token → Except Fault Token))) = program.map .ok := by
    rw [Config.instructions, Stage.items_new, Source.items_list]
    rfl
  have ⟨counted, runs⟩ :=
    Config.depthFrom?_instructions _ (Source.items_list _) ordered nonempty placed
  refine ⟨⟨nonempty, placed, ordered⟩, counted, ?_⟩
  intro ψ _ other last passed
  exact (runs ψ other).2 last (by decide) passed

end Reckoner
