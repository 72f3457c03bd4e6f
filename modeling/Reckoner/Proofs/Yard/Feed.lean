import Reckoner.Proofs.Phrase.Basic
import Reckoner.Yard.Basic

set_option autoImplicit false

namespace Reckoner

theorem Token.exists_of_marks_cons {tokens : List Token} {m : Mark} {marks : List Mark}
    (spelled : tokens.filterMap mark? = m :: marks) :
    ∃ front rest, tokens = front ++ rest ∧ front.filterMap mark? = [m] ∧
      rest.filterMap mark? = marks :=
  List.filterMap_eq_append_iff.1 (show tokens.filterMap mark? = [m] ++ marks from spelled)

theorem Token.exists_of_marks_enclosed {tokens : List Token} {opener closer : Mark}
    {marks : List Mark} (spelled : tokens.filterMap mark? = opener :: (marks ++ [closer])) :
    ∃ opening inner closing, tokens = opening ++ (inner ++ closing) ∧
      opening.filterMap mark? = [opener] ∧ inner.filterMap mark? = marks ∧
      closing.filterMap mark? = [closer] := by
  obtain ⟨opening, rest, rfl, opens, remaining⟩ := exists_of_marks_cons spelled
  obtain ⟨inner, closing, rfl, within, closes⟩ := List.filterMap_eq_append_iff.1 remaining
  exact ⟨opening, inner, closing, rfl, opens, within, closes⟩

namespace Yard

/-- What several tokens do, one after the other, up to the first fault. -/
def feed (p : Precedence) (y : Yard) : List Token → Step
  | [] => ⟨[], .ok y⟩
  | t :: rest =>
    match y.accept p t with
    | ⟨program, .error fault⟩ => ⟨program, .error fault⟩
    | ⟨program, .ok next⟩ => ⟨program ++ (next.feed p rest).program, (next.feed p rest).outcome⟩

@[simp] theorem feed_nil (p : Precedence) (y : Yard) : y.feed p [] = ⟨[], .ok y⟩ := rfl

theorem feed_cons_of_ok {p : Precedence} {y next : Yard} {t : Token} {program : Program}
    (step : y.accept p t = ⟨program, .ok next⟩) (rest : List Token) :
    y.feed p (t :: rest) = ⟨program ++ (next.feed p rest).program, (next.feed p rest).outcome⟩ := by
  simp only [feed, step]

/-- The first of several tokens without a fault, and the others after it. -/
theorem exists_of_feed_cons {p : Precedence} {y last : Yard} {t : Token} {rest : List Token}
    {program : Program} (passed : y.feed p (t :: rest) = ⟨program, .ok last⟩) :
    ∃ sent next later, y.accept p t = ⟨sent, .ok next⟩ ∧
      next.feed p rest = ⟨later, .ok last⟩ ∧ program = sent ++ later := by
  match step : y.accept p t with
  | ⟨sent, .error fault⟩ => simp [feed, step] at passed
  | ⟨sent, .ok next⟩ =>
    rw [feed_cons_of_ok step] at passed
    simp only [Step.mk.injEq] at passed
    obtain ⟨rfl, outcome⟩ := passed
    exact ⟨sent, next, (next.feed p rest).program, rfl, by rw [← outcome], rfl⟩

theorem feed_append_of_ok {p : Precedence} {y next : Yard} {first : List Token}
    {program : Program} (front : y.feed p first = ⟨program, .ok next⟩) (second : List Token) :
    y.feed p (first ++ second) =
      ⟨program ++ (next.feed p second).program, (next.feed p second).outcome⟩ := by
  induction first generalizing y program with
  | nil =>
    simp only [feed_nil, Step.mk.injEq, Except.ok.injEq] at front
    obtain ⟨rfl, rfl⟩ := front
    rfl
  | cons t rest ih =>
    obtain ⟨sent, between, later, step, remaining, rfl⟩ := exists_of_feed_cons front
    rw [List.cons_append, feed_cons_of_ok step, ih remaining, List.append_assoc]

theorem feed_append {p : Precedence} {y next last : Yard} {first second : List Token}
    {program later : Program} (front : y.feed p first = ⟨program, .ok next⟩)
    (back : next.feed p second = ⟨later, .ok last⟩) :
    y.feed p (first ++ second) = ⟨program ++ later, .ok last⟩ := by
  rw [feed_append_of_ok front, back]

theorem run_cons_of_ok {p : Precedence} {y next : Yard} {t : Token} {program : Program}
    (step : y.accept p t = ⟨program, .ok next⟩) (rest : List (Except Fault Token)) :
    y.run p (.ok t :: rest) = (program ++ (next.run p rest).1, (next.run p rest).2) := by
  simp only [run, step]

theorem run_cons_of_error {p : Precedence} {y : Yard} {t : Token} {program : Program}
    {fault : Fault} (step : y.accept p t = ⟨program, .error fault⟩)
    (rest : List (Except Fault Token)) : y.run p (.ok t :: rest) = (program, some fault) := by
  simp only [run, step]

/-- A run over tokens without a fault is a run over the rest from where they lead. -/
theorem run_of_feed {p : Precedence} {y next : Yard} {tokens : List Token} {program : Program}
    (front : y.feed p tokens = ⟨program, .ok next⟩) (items : List (Except Fault Token)) :
    y.run p (tokens.map .ok ++ items) = (program ++ (next.run p items).1, (next.run p items).2) := by
  induction tokens generalizing y program with
  | nil =>
    simp only [feed_nil, Step.mk.injEq, Except.ok.injEq] at front
    obtain ⟨rfl, rfl⟩ := front
    rfl
  | cons t rest ih =>
    obtain ⟨sent, between, later, step, remaining, rfl⟩ := exists_of_feed_cons front
    simp only [List.map_cons, List.cons_append, run, step, ih remaining, List.append_assoc]

/-- A run that fails early fails there, whatever comes after. -/
theorem run_of_feed_error {p : Precedence} {y : Yard} {tokens : List Token} {program : Program}
    {fault : Fault}
    (failed : y.feed p tokens = ⟨program, .error fault⟩) (items : List (Except Fault Token)) :
    y.run p (tokens.map .ok ++ items) = (program, some fault) := by
  induction tokens generalizing y program with
  | nil => cases failed
  | cons t rest ih =>
    rw [List.map_cons, List.cons_append]
    cases step : y.accept p t with
    | mk first outcome =>
      cases outcome with
      | error raised =>
        simp only [feed, step] at failed
        cases failed
        exact run_cons_of_error step _
      | ok next =>
        rw [feed_cons_of_ok step] at failed
        obtain ⟨rfl, outcome⟩ := Step.mk.inj failed
        have later : next.feed p rest = ⟨(next.feed p rest).program, .error fault⟩ :=
          congrArg (Step.mk _) outcome
        rw [run_cons_of_ok step, ih later]

def acceptMark (p : Precedence) (y : Yard) (start : Nat) : Mark → Step
  | .number raw => proceed .number [.push (.ofNumeral raw)] y.stack
  | .string raw => proceed .string [.push (.ofEnclosed raw)] y.stack
  | .word raw => proceed .word [.load raw] y.stack
  | .operator symbol => acceptOperator p y symbol
  | .openParen =>
    proceed .openParen [] ((if y.afterOperand then .call start 1 else .group start) :: y.stack)
  | .closeParen => closeParen y start
  | .openBracket => proceed .openBracket [] (.array start 1 :: y.stack)
  | .closeBracket => closeBracket y start

theorem accept_of_mark {t : Token} {m : Mark} (marked : t.mark? = some m) (p : Precedence)
    (y : Yard) : y.accept p t = y.acceptMark p t.start m := by
  unfold Token.mark? at marked
  cases kind : t.kind <;> simp only [kind, Option.some.injEq, reduceCtorEq] at marked <;>
    subst marked <;> simp only [accept, acceptMark, kind]

theorem accept_of_blank {t : Token} (unmarked : t.mark? = none) (p : Precedence) (y : Yard) :
    y.accept p t = ⟨[], .ok y⟩ := by
  have white : t.kind = .whitespace := by
    unfold Token.mark? at unmarked
    cases kind : t.kind <;> simp [kind] at unmarked ⊢
  simp only [accept, white]

theorem feed_blank {tokens : List Token} (blank : tokens.filterMap Token.mark? = [])
    (p : Precedence) (y : Yard) : y.feed p tokens = ⟨[], .ok y⟩ := by
  induction tokens with
  | nil => rfl
  | cons t rest ih =>
    rw [List.filterMap_eq_nil_iff] at blank
    have step := accept_of_blank (blank t List.mem_cons_self) p y
    have remaining : rest.filterMap Token.mark? = [] := by
      rw [List.filterMap_eq_nil_iff]
      exact fun u member => blank u (List.mem_cons_of_mem t member)
    rw [feed_cons_of_ok step, ih remaining]
    rfl

/-- Tokens that are blank but for one do what that one does. -/
theorem exists_feed_of_mark {tokens : List Token} {m : Mark}
    (spelled : tokens.filterMap Token.mark? = [m]) :
    ∃ start, ∀ p y, feed p y tokens = acceptMark p y start m := by
  obtain ⟨before, t, rest, rfl, blank, marked, after⟩ := List.filterMap_eq_cons_iff.1 spelled
  refine ⟨t.start, fun p y => ?_⟩
  have front := feed_blank (List.filterMap_eq_nil_iff.2 blank) p y
  rw [feed_append_of_ok front, ← accept_of_mark marked]
  match step : y.accept p t with
  | ⟨program, .error fault⟩ => simp [feed, step]
  | ⟨program, .ok next⟩ => simp [feed_cons_of_ok step, feed_blank after]

/-- Operators that wait, the latest first, as entries of a stack. -/
def entries (waiting : List (String × Nat)) : List Entry :=
  waiting.map fun (symbol, arity) => .operator symbol arity

/-- Operators that wait, the latest first, as instructions. -/
def applications (waiting : List (String × Nat)) : Program :=
  waiting.map fun (symbol, arity) => .apply symbol arity

@[simp] theorem applications_nil : applications [] = [] := rfl

theorem entries_append (first second : List (String × Nat)) :
    entries (first ++ second) = entries first ++ entries second :=
  List.map_append

theorem applications_append (first second : List (String × Nat)) :
    applications (first ++ second) = applications first ++ applications second :=
  List.map_append

theorem flush_entries (waiting : List (String × Nat)) {base : List Entry}
    (floor : flush base = ([], base)) :
    flush (entries waiting ++ base) = (applications waiting, base) := by
  induction waiting with
  | nil => exact floor
  | cons operator rest ih =>
    change flush (.operator operator.1 operator.2 :: (entries rest ++ base)) = _
    simp only [flush, ih]
    rfl

@[simp] theorem separates_entries (waiting : List (String × Nat)) (base : List Entry) :
    separates (entries waiting ++ base) = separates base := by
  induction waiting with
  | nil => rfl
  | cons operator rest ih => exact ih

end Yard

end Reckoner
