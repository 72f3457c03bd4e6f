import Reckoner.Yard.Stage

set_option autoImplicit false

namespace Reckoner

def Program.stream (program : Program) (fault : Option Fault) : List (Except Fault Instruction) :=
  program.map .ok ++ fault.toList.map .error

theorem Program.stream_append (first second : Program) (fault : Option Fault) :
    (first ++ second).stream fault = first.map .ok ++ second.stream fault := by
  rw [stream, stream, List.map_append, List.append_assoc]

namespace Stage

variable {σ : Type} [Source σ (Except Fault Token)]

theorem items_of_deliver? {s rest : Stage σ} {item : Except Fault Instruction}
    (ready : s.deliver? = some (item, rest)) : Source.items s = item :: Source.items rest := by
  apply Source.items_of_pull_some
  simp only [Source.pull]
  rw [next, ready]

theorem items_eq_append (s : Stage σ) :
    Source.items s = s.queue.map .ok ++ Source.items { s with queue := [] } := by
  obtain ⟨precedence, tokens, yard, queue, fault, done⟩ := s
  induction queue with
  | nil => rfl
  | cons i rest ih => rw [items_of_deliver? rfl, ih, List.map_cons, List.cons_append]

/-- Once nothing more is pulled, what is left is what is ready. -/
theorem items_done {s : Stage σ} (done : s.done) :
    Source.items s = Program.stream s.queue s.fault := by
  obtain ⟨precedence, tokens, yard, queue, fault, _⟩ := s
  subst done
  have nothing : Source.items (Stage.mk precedence tokens yard [] none true) = [] := by
    apply Source.items_of_pull_none
    simp only [Source.pull]
    rw [next]
    rfl
  rw [items_eq_append, Program.stream]
  cases fault with
  | none => rw [nothing]; rfl
  | some fault => rw [items_of_deliver? rfl, nothing]; rfl

theorem items_feed {s : Stage σ} (running : ¬ s.done) (idle : s.deliver? = none) :
    Source.items s = Source.items s.feed := by
  have same : Source.pull s = Source.pull s.feed := by
    simp only [Source.pull]
    rw [next, idle]
    simp only [running, Bool.false_eq_true, if_false]
  match item : Source.pull s.feed with
  | (none, rest) =>
    rw [Source.items_of_pull_none item, Source.items_of_pull_none (same.trans item)]
  | (some i, rest) =>
    rw [Source.items_of_pull_some item, Source.items_of_pull_some (same.trans item)]

theorem items_running (p : Precedence) (tokens : σ) (y : Yard) :
    Source.items (Stage.mk p tokens y [] none false) =
      (y.run p (Source.items tokens)).1.stream (y.run p (Source.items tokens)).2 := by
  induction bound : Source.size tokens using Nat.strongRecOn generalizing tokens y with
  | _ n ih =>
    subst bound
    rw [items_feed (by simp) rfl]
    match item : Source.pull tokens with
    | (some (.ok token), rest) =>
      rw [Source.items_of_pull_some item, feed_eq item]
      simp only [take, Yard.run]
      split
      · next program after step =>
        rw [items_eq_append]
        simp only
        rw [ih _ (Source.size_lt_of_pull item) rest after rfl]
        simp [step, Program.stream]
      · next program fault step =>
        rw [items_done rfl]
        simp [step]
    | (some (.error fault), rest) =>
      rw [Source.items_of_pull_some item, feed_eq item, take, items_done rfl]
      rfl
    | (none, rest) =>
      rw [Source.items_of_pull_none item, feed_eq item, take, items_done rfl]
      rfl

theorem items_new (p : Precedence) (tokens : σ) :
    Source.items (Stage.new p tokens) =
      (Yard.empty.run p (Source.items tokens)).1.stream
        (Yard.empty.run p (Source.items tokens)).2 :=
  items_running p tokens .empty

end Stage

end Reckoner
