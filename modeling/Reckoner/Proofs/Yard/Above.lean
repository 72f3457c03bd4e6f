import Reckoner.Proofs.Yard.Counters

set_option autoImplicit false

namespace Reckoner

namespace Yard

variable {p : Precedence} {y next : Yard} {t : Token} {stack base : List Entry}
  {bottom : Option TokenKind}

/-- The yard above what waited before it, and after a latest token where it has taken nothing in. -/
def above (base : List Entry) (bottom : Option TokenKind) (y : Yard) : Yard :=
  ⟨y.stack ++ base, y.last.or bottom⟩

def Step.above (base : List Entry) (bottom : Option TokenKind) (s : Step) : Step :=
  ⟨s.program, s.outcome.map (Yard.above base bottom)⟩

/-- Nothing waits where nothing was taken in. -/
def Fresh (y : Yard) : Prop :=
  y.last = none → y.stack = []

/-- An opener keeps a stack apart from what is below: one on the stack, or that of a group below. -/
def Floored (stack base : List Entry) : Prop :=
  opened stack ≠ [] ∨ ∃ start outer, base = .group start :: outer

namespace Floored

theorem nil (floored : Floored [] base) : ∃ start outer, base = .group start :: outer :=
  floored.resolve_left fun opener => opener rfl

theorem flush (floored : Floored stack base) :
    Yard.flush (stack ++ base) = ((Yard.flush stack).1, (Yard.flush stack).2 ++ base) := by
  induction stack with
  | nil =>
    obtain ⟨start, outer, rfl⟩ := floored.nil
    rfl
  | cons entry rest ih =>
    cases entry with
    | operator symbol arity => simp only [List.cons_append, Yard.flush, ih floored]
    | group start => rfl
    | call start count => rfl
    | array start count => rfl

theorem separates (floored : Floored stack base) :
    Yard.separates (stack ++ base) = Yard.separates stack := by
  induction stack with
  | nil =>
    obtain ⟨start, outer, rfl⟩ := floored.nil
    rfl
  | cons entry rest ih =>
    cases entry with
    | operator symbol arity => exact ih floored
    | group start => rfl
    | call start count => rfl
    | array start count => rfl

theorem countOne (floored : Floored stack base) :
    Yard.countOne ((Yard.flush stack).2 ++ base) = Yard.countOne (Yard.flush stack).2 ++ base := by
  induction stack with
  | nil =>
    obtain ⟨start, outer, rfl⟩ := floored.nil
    rfl
  | cons entry rest ih =>
    cases entry with
    | operator symbol arity => exact ih floored
    | group start => rfl
    | call start count => rfl
    | array start count => rfl

theorem placeBinary (floored : Floored stack base) (symbol : String) :
    Yard.placeBinary p symbol (stack ++ base) =
      (Yard.placeBinary p symbol stack).above base bottom := by
  cases stack with
  | nil =>
    obtain ⟨start, outer, rfl⟩ := floored.nil
    rfl
  | cons entry rest =>
    cases entry with
    | operator waiting arity =>
      simp only [List.cons_append, Yard.placeBinary]
      split <;> rfl
    | group start => rfl
    | call start count => rfl
    | array start count => rfl

end Floored

theorem afterOperand_above (quiet : bottom.any TokenKind.endsOperand = false) :
    (y.above base bottom).afterOperand = y.afterOperand := by
  unfold above afterOperand
  cases y.last with
  | none => exact quiet
  | some kind => rfl

theorem last_above (fresh : y.Fresh) {kind : TokenKind} {entry : Entry} {rest : List Entry}
    (front : (flush y.stack).2 = entry :: rest) :
    (y.above base bottom).last = some kind ↔ y.last = some kind := by
  unfold above
  cases last : y.last with
  | none =>
    rw [fresh last] at front
    cases front
  | some kind => rfl

/-- What is flushed down to an opener is flushed so above anything. -/
theorem flush_above {entry : Entry} {rest : List Entry}
    (front : (flush y.stack).2 = entry :: rest) (opener : entry.isOpener = true) :
    flush (y.above base bottom).stack = ((flush y.stack).1, entry :: (rest ++ base)) := by
  have floored : Floored y.stack base := by
    left
    rw [← opened_flush, front, opened, List.filter_cons_of_pos opener]
    exact List.cons_ne_nil _ _
  have flushed := floored.flush
  rw [front] at flushed
  exact flushed

theorem acceptOperator_above (floored : Floored y.stack base)
    (quiet : bottom.any TokenKind.endsOperand = false) (symbol : String) :
    acceptOperator p (y.above base bottom) symbol =
      (acceptOperator p y symbol).above base bottom := by
  have separates : Yard.separates (y.above base bottom).stack = Yard.separates y.stack :=
    floored.separates
  have flushed : flush (y.above base bottom).stack =
      ((flush y.stack).1, (flush y.stack).2 ++ base) := floored.flush
  have placed : placeBinary p symbol (y.above base bottom).stack =
      (placeBinary p symbol y.stack).above base bottom := floored.placeBinary symbol
  unfold acceptOperator
  rw [separates, flushed, afterOperand_above quiet, placed]
  split
  · simp only [floored.countOne]
    rfl
  · split <;> rfl

theorem closeParen_above {position : Nat} {sent : Program} (fresh : y.Fresh)
    (passed : closeParen y position = ⟨sent, .ok next⟩) :
    closeParen (y.above base bottom) position = ⟨sent, .ok (next.above base bottom)⟩ := by
  simp only [closeParen] at passed ⊢
  rcases flush_cases y.stack with front | ⟨opened, rest, front⟩ | ⟨opened, count, rest, front⟩ |
      ⟨opened, count, rest, front⟩
  · rw [front] at passed
    cases passed
  · rw [flush_above front rfl]
    rw [front] at passed
    cases passed
    rfl
  · simp only [flush_above front rfl, last_above fresh front]
    rw [front] at passed
    cases passed
    rfl
  · rw [front] at passed
    cases passed

theorem closeBracket_above {position : Nat} {sent : Program} (fresh : y.Fresh)
    (passed : closeBracket y position = ⟨sent, .ok next⟩) :
    closeBracket (y.above base bottom) position = ⟨sent, .ok (next.above base bottom)⟩ := by
  simp only [closeBracket] at passed ⊢
  rcases flush_cases y.stack with front | ⟨opened, rest, front⟩ | ⟨opened, count, rest, front⟩ |
      ⟨opened, count, rest, front⟩
  · rw [front] at passed
    cases passed
  · rw [front] at passed
    cases passed
  · rw [front] at passed
    cases passed
  · simp only [flush_above front rfl, last_above fresh front]
    rw [front] at passed
    cases passed
    rfl

/-- A step without a fault is the same above anything, if an operator is kept apart from it. -/
theorem accept_above {sent : Program} (fresh : y.Fresh)
    (quiet : bottom.any TokenKind.endsOperand = false)
    (floored : ∀ symbol, t.mark? = some (.operator symbol) → Floored y.stack base)
    (passed : y.accept p t = ⟨sent, .ok next⟩) :
    (y.above base bottom).accept p t = ⟨sent, .ok (next.above base bottom)⟩ := by
  cases marked : t.mark? with
  | none =>
    rw [accept_of_blank marked] at passed ⊢
    cases passed
    rfl
  | some m =>
    rw [accept_of_mark marked] at passed ⊢
    cases m with
    | operator symbol =>
      exact (acceptOperator_above (floored symbol marked) quiet symbol).trans
        (congrArg (Step.above base bottom) passed)
    | openParen =>
      simp only [acceptMark, afterOperand_above quiet] at passed ⊢
      cases passed
      rfl
    | closeParen => exact closeParen_above fresh passed
    | closeBracket => exact closeBracket_above fresh passed
    | _ =>
      cases passed
      rfl

theorem Fresh.accept {sent : Program} (fresh : y.Fresh)
    (passed : y.accept p t = ⟨sent, .ok next⟩) : next.Fresh := by
  cases marked : t.mark? with
  | none =>
    rw [accept_of_blank marked] at passed
    cases passed
    exact fresh
  | some m =>
    intro nothing
    have latest := (move_accept (p := p) (y := y) marked).last (by rw [passed])
    cases nothing.symm.trans latest

/-- Whether a property holds wherever an operator is taken in. -/
def AtOperators (p : Precedence) (P : Yard → Prop) (y : Yard) (tokens : List Token) : Prop :=
  ∀ (front back : List Token) (t : Token) (symbol : String) (sent : Program) (z : Yard),
    tokens = front ++ t :: back → t.mark? = some (.operator symbol) →
      y.feed p front = ⟨sent, .ok z⟩ → P z

namespace AtOperators

variable {P : Yard → Prop} {rest : List Token}

theorem here (each : AtOperators p P y (t :: rest)) {symbol : String}
    (marked : t.mark? = some (.operator symbol)) : P y :=
  each [] rest t symbol [] y rfl marked rfl

theorem later {sent : Program} (each : AtOperators p P y (t :: rest))
    (step : y.accept p t = ⟨sent, .ok next⟩) : AtOperators p P next rest := by
  rintro front back u symbol reached z rfl marked passed
  refine each (t :: front) back u symbol (sent ++ reached) z rfl marked ?_
  rw [feed_cons_of_ok step, passed]

end AtOperators

/-- Tokens without a fault do the same above anything that their operators are kept apart from. -/
theorem feed_above {tokens : List Token} {sent : Program} (fresh : y.Fresh)
    (quiet : bottom.any TokenKind.endsOperand = false)
    (floored : AtOperators p (fun z => Floored z.stack base) y tokens)
    (passed : y.feed p tokens = ⟨sent, .ok next⟩) :
    (y.above base bottom).feed p tokens = ⟨sent, .ok (next.above base bottom)⟩ := by
  induction tokens generalizing y sent with
  | nil =>
    cases passed
    rfl
  | cons t rest ih =>
    obtain ⟨first, between, later, step, remaining, rfl⟩ := exists_of_feed_cons passed
    have same := accept_above fresh quiet (fun symbol marked => floored.here marked) step
    rw [feed_cons_of_ok same, ih (fresh.accept step) (floored.later step) remaining]

/-- No operator waits below all openers. -/
def Bare (stack : List Entry) : Prop :=
  ∀ entry, [entry] <:+ stack → entry.isOpener = true

namespace Bare

theorem suffix {rest : List Entry} (bare : Bare stack) (part : rest <:+ stack) : Bare rest :=
  fun entry last => bare entry (last.trans part)

theorem cons {entry : Entry} (bare : Bare stack) (floor : entry.isOpener = true ∨ stack ≠ []) :
    Bare (entry :: stack) := by
  intro bottom last
  rcases List.suffix_cons_iff.1 last with alone | below
  · obtain ⟨rfl, rfl⟩ := List.cons.inj alone
    exact floor.resolve_right fun some => some rfl
  · exact bare bottom below

theorem countOne (bare : Bare stack) : Bare (Yard.countOne stack) := by
  unfold Yard.countOne
  split
  · exact (bare.suffix (List.suffix_cons _ _)).cons (Or.inl rfl)
  · exact (bare.suffix (List.suffix_cons _ _)).cons (Or.inl rfl)
  · exact bare

theorem eq_nil (bare : Bare stack) (closed : (flush stack).2 = []) : stack = [] := by
  by_contra nonempty
  obtain ⟨front, entry, rfl⟩ := List.eq_nil_or_concat' stack |>.resolve_left nonempty
  have opener := bare entry (List.suffix_append front [entry])
  have kept := opened_flush (front ++ [entry])
  rw [closed, opened, opened, List.filter_append, List.filter_cons_of_pos opener] at kept
  exact List.append_ne_nil_of_right_ne_nil _ (List.cons_ne_nil _ _) kept.symm

end Bare

/-- A step leaves no operator below all openers, if it takes none in where nothing is open. -/
theorem Move.bare {m : Mark} {start : Nat} {s : Step} (move : Move p y start m s)
    (bare : Bare y.stack) (within : ∀ symbol, m = .operator symbol → y.stack ≠ [])
    (passed : s.outcome = .ok next) : Bare next.stack := by
  have flushed : Bare (flush y.stack).2 := bare.suffix (flush_suffix y.stack)
  cases move with
  | operand asks =>
    obtain rfl := Except.ok.inj passed
    exact bare
  | separate counted =>
    obtain rfl := Except.ok.inj passed
    exact flushed.countOne
  | @overtake symbol waiting arity rest plain after top =>
    obtain rfl := Except.ok.inj passed
    rw [top] at bare
    refine (bare.suffix (List.suffix_cons _ _)).cons (Or.inr ?_)
    rintro rfl
    exact Bool.false_ne_true (bare _ List.suffix_rfl)
  | @join symbol plain =>
    obtain rfl := Except.ok.inj passed
    exact bare.cons (Or.inr (within symbol rfl))
  | openGroup before =>
    obtain rfl := Except.ok.inj passed
    exact bare.cons (Or.inl rfl)
  | openCall after =>
    obtain rfl := Except.ok.inj passed
    exact bare.cons (Or.inl rfl)
  | openArray =>
    obtain rfl := Except.ok.inj passed
    exact bare.cons (Or.inl rfl)
  | closeGroup front =>
    obtain rfl := Except.ok.inj passed
    rw [front] at flushed
    exact flushed.suffix (List.suffix_cons _ _)
  | closeCall front =>
    obtain rfl := Except.ok.inj passed
    rw [front] at flushed
    exact flushed.suffix (List.suffix_cons _ _)
  | closeArray front =>
    obtain rfl := Except.ok.inj passed
    rw [front] at flushed
    exact flushed.suffix (List.suffix_cons _ _)
  | failParen => cases passed
  | failBracket => cases passed

theorem Bare.feed {tokens : List Token} {sent : Program} (bare : Bare y.stack)
    (within : AtOperators p (fun z => z.stack ≠ []) y tokens)
    (passed : y.feed p tokens = ⟨sent, .ok next⟩) : Bare next.stack := by
  induction tokens generalizing y sent with
  | nil =>
    cases passed
    exact bare
  | cons t rest ih =>
    obtain ⟨first, between, later, step, remaining, _⟩ := exists_of_feed_cons passed
    refine ih ?_ (within.later step) remaining
    cases marked : t.mark? with
    | none =>
      rw [accept_of_blank marked] at step
      cases step
      exact bare
    | some m =>
      refine (move_accept (p := p) (y := y) marked).bare bare ?_ (by rw [step])
      rintro symbol rfl
      exact within.here marked

end Yard

end Reckoner
