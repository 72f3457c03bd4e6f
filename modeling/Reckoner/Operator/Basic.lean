import Reckoner.Value.Basic
import Std.Data.TreeMap

set_option autoImplicit false

namespace Reckoner

/-- What a call does: it ends in a fault or a value, and counts the callables made. -/
abbrev Run (α : Type) := StateT Nat (Except Fault) α

def Run.newIdentity : Run Identity :=
  modifyGet fun made => (.made made, made + 1)

/-- A host knows a function for every code. -/
class Host (φ : Type) where
  call : φ → List (Value φ) → Run (Value φ)

variable {φ : Type}

/-- A callable that equals no other. -/
def Run.newCallable (name : String) (code : φ) : Run (Value φ) := do
  let identity ← Run.newIdentity
  return .callable ⟨name, identity, code⟩

/-- A function over its operands, leftmost first. -/
abbrev Implementation (φ : Type) := List (Value φ) → Run (Value φ)

namespace Implementation

def ofUnary (f : Value φ → Run (Value φ)) : Implementation φ
  | [a] => f a
  | operands => throw (.argumentCount 1 operands.length)

def ofBinary (f : Value φ → Value φ → Run (Value φ)) : Implementation φ
  | [a, b] => f a b
  | operands => throw (.argumentCount 2 operands.length)

end Implementation

/-- At most one implementation for each number of operands. -/
structure Operator (φ : Type) where
  implementations : Std.TreeMap Nat (Implementation φ)

namespace Operator

def empty : Operator φ := ⟨∅⟩

/-- With an implementation for `arity` operands in place of the one it had, if it had one. -/
def withArity (o : Operator φ) (arity : Nat) (f : Implementation φ) : Operator φ :=
  ⟨o.implementations.insert arity f⟩

def withUnary (o : Operator φ) (f : Value φ → Run (Value φ)) : Operator φ :=
  o.withArity 1 (.ofUnary f)

def withBinary (o : Operator φ) (f : Value φ → Value φ → Run (Value φ)) : Operator φ :=
  o.withArity 2 (.ofBinary f)

def unary (f : Value φ → Run (Value φ)) : Operator φ :=
  empty.withUnary f

def binary (f : Value φ → Value φ → Run (Value φ)) : Operator φ :=
  empty.withBinary f

def implementation? (o : Operator φ) (arity : Nat) : Option (Implementation φ) :=
  o.implementations[arity]?

def arities (o : Operator φ) : List Nat :=
  o.implementations.keys

def describe (o : Operator φ) : String :=
  "Operator \x7b arities: [" ++ ", ".intercalate (o.arities.map toString) ++ "] \x7d"

theorem implementation?_withArity (o : Operator φ) (arity other : Nat) (f : Implementation φ) :
    (o.withArity arity f).implementation? other =
      if arity = other then some f else o.implementation? other := by
  simp [withArity, implementation?, Std.TreeMap.getElem?_insert]

end Operator

def Callable.describe (c : Callable φ) : String :=
  "Callable(" ++ c.name ++ ")"

end Reckoner
