import Reckoner.Proofs.Token.Demand
import Reckoner.Proofs.Token.Spelling
import Reckoner.Proofs.Yard.Feed

set_option autoImplicit false

namespace Reckoner

theorem Mark.endsOperand_kind_of_operand? {m : Mark} {i : Instruction}
    (asks : m.operand? = some i) : m.kind.endsOperand = true := by
  cases m <;> first | rfl | cases asks

namespace Yard

/-- The steps that marks at a place of the source make in a yard, with what the yard is like where
they make them. -/
inductive Move (p : Precedence) (y : Yard) (start : Nat) : Mark → Step → Prop
  | operand {m : Mark} {i : Instruction} (asks : m.operand? = some i) :
      Move p y start m (proceed m.kind [i] y.stack)
  /-- A comma that separates. -/
  | separate (counted : separates y.stack = true) :
      Move p y start (.operator ",")
        (proceed .operator (flush y.stack).1 (countOne (flush y.stack).2))
  /-- A binary operator that sends the operator on top. -/
  | overtake {symbol waiting : String} {arity : Nat} {rest : List Entry}
      (plain : ¬ (symbol = "," ∧ separates y.stack = true)) (after : y.afterOperand = true)
      (top : y.stack = .operator waiting arity :: rest) :
      Move p y start (.operator symbol)
        (proceed .operator [.apply waiting arity] (.operator symbol 2 :: rest))
  /-- An operator that sends nothing. -/
  | join {symbol : String} (plain : ¬ (symbol = "," ∧ separates y.stack = true)) :
      Move p y start (.operator symbol)
        (proceed .operator [] (.operator symbol (if y.afterOperand then 2 else 1) :: y.stack))
  | openGroup (before : y.afterOperand = false) :
      Move p y start .openParen (proceed .openParen [] (.group start :: y.stack))
  | openCall (after : y.afterOperand = true) :
      Move p y start .openParen (proceed .openParen [] (.call start 1 :: y.stack))
  | openArray :
      Move p y start .openBracket (proceed .openBracket [] (.array start 1 :: y.stack))
  | closeGroup {opened : Nat} {rest : List Entry}
      (front : (flush y.stack).2 = .group opened :: rest) :
      Move p y start .closeParen (proceed .closeParen (flush y.stack).1 rest)
  | closeCall {opened count : Nat} {rest : List Entry}
      (front : (flush y.stack).2 = .call opened count :: rest) :
      Move p y start .closeParen
        (proceed .closeParen
          ((flush y.stack).1 ++ [.call (if y.last = some .openParen then 0 else count)]) rest)
  | closeArray {opened count : Nat} {rest : List Entry}
      (front : (flush y.stack).2 = .array opened count :: rest) :
      Move p y start .closeBracket
        (proceed .closeBracket
          ((flush y.stack).1 ++ [.collect (if y.last = some .openBracket then 0 else count)]) rest)
  | failParen (fault : Fault) (noGroup : ∀ opened rest, (flush y.stack).2 ≠ .group opened :: rest)
      (noCall : ∀ opened count rest, (flush y.stack).2 ≠ .call opened count :: rest) :
      Move p y start .closeParen ⟨(flush y.stack).1, .error fault⟩
  | failBracket (fault : Fault)
      (noArray : ∀ opened count rest, (flush y.stack).2 ≠ .array opened count :: rest) :
      Move p y start .closeBracket ⟨(flush y.stack).1, .error fault⟩

variable {p : Precedence} {y next : Yard} {start : Nat}

theorem Move.last {m : Mark} {s : Step} (move : Move p y start m s)
    (passed : s.outcome = .ok next) : next.last = some m.kind := by
  cases move with
  | failParen => cases passed
  | failBracket => cases passed
  | _ =>
    obtain rfl := Except.ok.inj passed
    rfl

theorem move_placeBinary {symbol : String}
    (plain : ¬ (symbol = "," ∧ separates y.stack = true)) (after : y.afterOperand = true) :
    Move p y start (.operator symbol) (placeBinary p symbol y.stack) := by
  have joins : Move p y start _ _ := .join plain
  rw [after, if_pos rfl] at joins
  unfold placeBinary
  split
  · next waiting arity rest top =>
    split
    · exact .overtake plain after top
    · rwa [top] at joins
  · exact joins

theorem move_acceptOperator (symbol : String) :
    Move p y start (.operator symbol) (acceptOperator p y symbol) := by
  unfold acceptOperator
  split
  · next counted =>
    obtain ⟨rfl, counted⟩ := counted
    exact .separate counted
  · next plain =>
    split
    · next after => exact move_placeBinary plain after
    · next before =>
      have joins : Move p y start _ _ := .join plain
      rwa [if_neg before] at joins

theorem move_closeParen (position : Nat) :
    Move p y start .closeParen (closeParen y position) := by
  simp only [closeParen]
  split
  · next opened rest front => exact .closeGroup front
  · next opened count rest front => exact .closeCall front
  · next noGroup noCall => exact .failParen _ noGroup noCall

theorem move_closeBracket (position : Nat) :
    Move p y start .closeBracket (closeBracket y position) := by
  simp only [closeBracket]
  split
  · next opened count rest front => exact .closeArray front
  · next front => exact .failBracket _ (by simp [front])
  · next front => exact .failBracket _ (by simp [front])
  · next noArray _ _ => exact .failBracket _ noArray

/-- A token makes one of the moves of its mark. -/
theorem move_accept {t : Token} {m : Mark} (marked : t.mark? = some m) :
    Move p y t.start m (y.accept p t) := by
  rw [accept_of_mark marked]
  cases m with
  | number raw => exact .operand rfl
  | string raw => exact .operand rfl
  | word raw => exact .operand rfl
  | operator symbol => exact move_acceptOperator symbol
  | openParen =>
    simp only [acceptMark]
    cases after : y.afterOperand with
    | true => exact .openCall after
    | false => exact .openGroup after
  | closeParen => exact move_closeParen t.start
  | openBracket => exact .openArray
  | closeBracket => exact move_closeBracket t.start

end Yard

end Reckoner
