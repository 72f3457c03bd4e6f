import Reckoner.Proofs.Tree.Decoding
import Reckoner.Yard.Stage

set_option autoImplicit false

namespace Reckoner

namespace Yard

theorem flush_suffix (stack : List Entry) : (flush stack).2 <:+ stack := by
  induction stack with
  | nil => exact List.suffix_rfl
  | cons entry rest ih =>
    cases entry with
    | operator symbol arity => exact ih.trans (List.suffix_cons _ rest)
    | group start => exact List.suffix_rfl
    | call start count => exact List.suffix_rfl
    | array start count => exact List.suffix_rfl

theorem call_not_mem_flush (stack : List Entry) (arity : Nat) :
    Instruction.call arity ∉ (flush stack).1 := by
  induction stack with
  | nil => exact List.not_mem_nil
  | cons entry rest ih =>
    cases entry with
    | operator symbol waiting => simpa [flush] using ih
    | group start => exact List.not_mem_nil
    | call start count => exact List.not_mem_nil
    | array start count => exact List.not_mem_nil

def Entry.counted : Entry → Nat
  | .call _ count => count
  | _ => 0

/-- No open call has counted more than `n` operands. -/
def CountsUpTo (n : Nat) (stack : List Entry) : Prop :=
  ∀ e ∈ stack, e.counted ≤ n

namespace CountsUpTo

variable {n : Nat} {entry : Entry} {stack : List Entry}

theorem succ (counts : CountsUpTo n stack) : CountsUpTo (n + 1) stack :=
  fun e member => Nat.le_succ_of_le (counts e member)

theorem cons (here : entry.counted ≤ n) (counts : CountsUpTo n stack) :
    CountsUpTo n (entry :: stack) :=
  List.forall_mem_cons.2 ⟨here, counts⟩

theorem of_cons (counts : CountsUpTo n (entry :: stack)) :
    entry.counted ≤ n ∧ CountsUpTo n stack :=
  List.forall_mem_cons.1 counts

theorem flush (counts : CountsUpTo n stack) : CountsUpTo n (Yard.flush stack).2 :=
  fun e member => counts e ((flush_suffix stack).mem member)

theorem countOne (counts : CountsUpTo n stack) : CountsUpTo (n + 1) (Yard.countOne stack) := by
  unfold Yard.countOne
  split
  · have ⟨here, others⟩ := counts.of_cons
    exact others.succ.cons (Nat.succ_le_succ here)
  · exact counts.of_cons.2.succ.cons (Nat.zero_le _)
  · exact counts.succ

end CountsUpTo

/-- What a step sends calls with at most `n` operands, and no call that it leaves open has counted more
than one further. -/
structure Step.CallsUpTo (n : Nat) (s : Step) : Prop where
  sent : ∀ arity, .call arity ∈ s.program → arity ≤ n
  waits : CountsUpTo (n + 1) s.stack

variable {n : Nat} {y : Yard}

theorem callsUpTo_placeBinary {stack : List Entry} (counts : CountsUpTo n stack) (p : Precedence)
    (symbol : String) : (placeBinary p symbol stack).CallsUpTo n := by
  unfold placeBinary
  split
  · split
    · have sent (arity : Nat) (waiting : String) (count : Nat)
          (member : Instruction.call arity ∈ [.apply waiting count]) : arity ≤ n := by
        cases List.mem_singleton.1 member
      exact ⟨fun arity => sent arity _ _, counts.of_cons.2.succ.cons (Nat.zero_le _)⟩
    · exact ⟨nofun, counts.succ.cons (Nat.zero_le _)⟩
  · exact ⟨nofun, counts.succ.cons (Nat.zero_le _)⟩

theorem callsUpTo_acceptOperator (counts : CountsUpTo n y.stack) (p : Precedence)
    (symbol : String) : (acceptOperator p y symbol).CallsUpTo n := by
  unfold acceptOperator
  split
  · refine ⟨?_, counts.flush.countOne⟩
    intro arity member
    exact absurd member (call_not_mem_flush y.stack arity)
  · split
    · exact callsUpTo_placeBinary counts p symbol
    · exact ⟨nofun, counts.succ.cons (Nat.zero_le _)⟩

theorem callsUpTo_closeParen (counts : CountsUpTo n y.stack) (position : Nat) :
    (closeParen y position).CallsUpTo n := by
  have sent (arity : Nat) (member : .call arity ∈ (flush y.stack).1) : arity ≤ n :=
    absurd member (call_not_mem_flush y.stack arity)
  have kept := counts.flush
  unfold closeParen
  simp only
  split
  · next start rest stack =>
    rw [stack] at kept
    exact ⟨sent, kept.of_cons.2.succ⟩
  · next start count rest stack =>
    rw [stack] at kept
    have counted : count ≤ n := kept.of_cons.1
    refine ⟨?_, kept.of_cons.2.succ⟩
    intro arity member
    rcases List.mem_append.1 member with earlier | last
    · exact sent arity earlier
    · obtain rfl := Instruction.call.inj (List.mem_singleton.1 last)
      split <;> omega
  · exact ⟨sent, nofun⟩

theorem callsUpTo_closeBracket (counts : CountsUpTo n y.stack) (position : Nat) :
    (closeBracket y position).CallsUpTo n := by
  have sent (arity : Nat) (member : .call arity ∈ (flush y.stack).1) : arity ≤ n :=
    absurd member (call_not_mem_flush y.stack arity)
  have kept := counts.flush
  unfold closeBracket
  simp only
  split
  · next start count rest stack =>
    rw [stack] at kept
    refine ⟨?_, kept.of_cons.2.succ⟩
    intro arity member
    rcases List.mem_append.1 member with earlier | last
    · exact sent arity earlier
    · cases List.mem_singleton.1 last
  all_goals exact ⟨sent, nofun⟩

/-- A token calls with no more operands than were counted, and counts at most one more. -/
theorem callsUpTo_accept (counts : CountsUpTo n y.stack) (p : Precedence) (t : Token) :
    (y.accept p t).CallsUpTo n := by
  -- what is pushed or loaded calls nothing
  have operand {kind : TokenKind} {i : Instruction} (other : ∀ arity, i ≠ .call arity) :
      (proceed kind [i] y.stack).CallsUpTo n := by
    refine ⟨?_, counts.succ⟩
    intro arity member
    exact absurd (List.mem_singleton.1 member).symm (other arity)
  unfold accept
  split
  case h_1 => exact ⟨nofun, counts.succ⟩
  case h_2 => exact operand nofun
  case h_3 => exact operand nofun
  case h_4 => exact operand nofun
  case h_5 => exact callsUpTo_acceptOperator counts p t.raw
  case h_6 =>
    refine ⟨nofun, counts.succ.cons ?_⟩
    split
    · exact Nat.succ_le_succ (Nat.zero_le n)
    · exact Nat.zero_le _
  case h_7 => exact callsUpTo_closeParen counts t.start
  case h_8 => exact ⟨nofun, counts.succ.cons (Nat.zero_le _)⟩
  case h_9 => exact callsUpTo_closeBracket counts t.start

/-- A run calls with fewer operands than the stream has tokens. -/
theorem arity_lt_of_mem_run (counts : CountsUpTo n y.stack) (p : Precedence)
    (items : List (Except Fault Token)) {arity : Nat}
    (member : .call arity ∈ (y.run p items).1) : arity < n + items.length := by
  induction items generalizing y n with
  | nil =>
    have sent := call_not_mem_flush y.stack arity
    simp only [run, finish] at member
    split at member <;> exact absurd member sent
  | cons item rest ih =>
    cases item with
    | error fault => cases member
    | ok t =>
      have calls := callsUpTo_accept counts p t
      simp only [run] at member
      match step : y.accept p t with
      | ⟨program, .error fault⟩ =>
        rw [step] at calls member
        have bound := calls.sent arity member
        rw [List.length_cons]
        omega
      | ⟨program, .ok next⟩ =>
        rw [step] at calls member
        rcases List.mem_append.1 member with here | later
        · have bound := calls.sent arity here
          rw [List.length_cons]
          omega
        · have bound := ih calls.waits later
          rw [List.length_cons]
          omega

/-- A stream as long as a word can say makes a program that a machine can carry out. -/
theorem fits_run (p : Precedence) {items : List (Except Fault Token)}
    (size : items.length ≤ Instruction.maxNeed) : ∀ i ∈ (empty.run p items).1, i.Fits := by
  intro i member
  cases i with
  | call arity =>
    have counts : CountsUpTo 0 empty.stack := nofun
    have bound := arity_lt_of_mem_run counts p items member
    change arity < Instruction.maxNeed
    omega
  | push l => trivial
  | load s => trivial
  | apply symbol arity => trivial
  | collect count => trivial

end Yard

end Reckoner
