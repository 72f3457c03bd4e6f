import Reckoner.Machine

set_option autoImplicit false

namespace Reckoner

inductive Tree where
  | literal (l : Literal)
  | name (s : String)
  | apply (symbol : String) (operands : List Tree)
  | collect (items : List Tree)
  | call (callee : Tree) (operands : List Tree)

namespace Tree

mutual

/-- The operands in order, and then what is done with them. -/
def program : Tree → Program
  | literal l => [.push l]
  | name s => [.load s]
  | apply symbol operands => programs operands ++ [.apply symbol operands.length]
  | collect items => programs items ++ [.collect items.length]
  | call callee operands => callee.program ++ programs operands ++ [.call operands.length]

def programs : List Tree → Program
  | [] => []
  | t :: rest => t.program ++ programs rest

end

@[simp] theorem programs_append (first second : List Tree) :
    programs (first ++ second) = programs first ++ programs second := by
  induction first with
  | nil => rfl
  | cons t rest ih => simp only [List.cons_append, programs, ih, List.append_assoc]

variable {φ : Type} [Host φ]

/-- What an operator makes of its operands, if there is one for so many. -/
def applied (config : Config φ) (symbol : String) (operands : List (Value φ)) : Run (Value φ) :=
  match config.operator? symbol with
  | none => throw (.unknownOperator symbol)
  | some operator =>
    match operator.implementation? operands.length with
    | none => throw (.unsupportedArity symbol operands.length)
    | some f => f operands

def called (callee : Value φ) (operands : List (Value φ)) : Run (Value φ) :=
  match callee with
  | .callable c => Host.call c.code operands
  | other => throw (.notCallable other.kind)

mutual

/-- The value of a tree: its parts from left to right, all of them, and then the tree itself. -/
def eval (config : Config φ) : Tree → Run (Value φ)
  | literal l => return Machine.ofLiteral l
  | name s => return (config.bound? s).getD .missing
  | apply symbol operands => do
    let values ← evalAll config operands
    applied config symbol values
  | collect items => do
    let values ← evalAll config items
    return .list values
  | call callee operands => do
    let f ← callee.eval config
    let values ← evalAll config operands
    called f values

def evalAll (config : Config φ) : List Tree → Run (List (Value φ))
  | [] => return []
  | t :: rest => do
    let value ← t.eval config
    let values ← evalAll config rest
    return value :: values

end

end Tree

end Reckoner
