import Reckoner.Operator.Basic
import Reckoner.Value.Equality

set_option autoImplicit false

namespace Reckoner.Standard

variable {φ : Type}

def expectNumber (symbol : String) (v : Value φ) : Except Fault Float :=
  match v with
  | .number x => .ok x
  | other => .error <|
      .typeMismatch ("`" ++ symbol ++ "` expects a number, got " ++ other.kind.name)

def negate (a : Value φ) : Except Fault (Value φ) := do
  let x ← expectNumber "-" a
  return .number (-x)

/-- An operation on two numbers; the left operand is looked at first. -/
def arithmetic (symbol : String) (f : Float → Float → Float) (a b : Value φ) :
    Except Fault (Value φ) := do
  let x ← expectNumber symbol a
  let y ← expectNumber symbol b
  return .number (f x y)

/-- Numbers are added; a text takes the text of the other operand to itself. -/
def add (a b : Value φ) : Except Fault (Value φ) :=
  match a, b with
  | .number x, .number y => .ok (.number (x + y))
  | .text s, b => .ok (.text (s ++ b.display))
  | a, .text t => .ok (.text (a.display ++ t))
  | a, b => .error (.typeMismatch ("cannot add " ++ a.kind.name ++ " and " ++ b.kind.name))

/-- How two values of an order compare. -/
inductive Relation where
  | less
  | lessEqual
  | greater
  | greaterEqual
deriving DecidableEq, Repr

namespace Relation

def symbol : Relation → String
  | less => "<"
  | lessEqual => "<="
  | greater => ">"
  | greaterEqual => ">="

/-- Every relation to a NaN fails. -/
def ofNumbers (r : Relation) (x y : Float) : Bool :=
  match r with
  | less => x < y
  | lessEqual => x ≤ y
  | greater => y < x
  | greaterEqual => y ≤ x

/-- Texts are ordered by their characters, first difference first. -/
def ofTexts (r : Relation) (s t : String) : Bool :=
  match r with
  | less => s < t
  | lessEqual => s ≤ t
  | greater => t < s
  | greaterEqual => t ≤ s

end Relation

def compare (r : Relation) (a b : Value φ) : Except Fault (Value φ) :=
  match a, b with
  | .number x, .number y => .ok (.bool (r.ofNumbers x y))
  | .text s, .text t => .ok (.bool (r.ofTexts s t))
  | a, b => .error <| .typeMismatch
      ("cannot compare " ++ a.kind.name ++ " " ++ r.symbol ++ " " ++ b.kind.name)

/-- Whether a list has the value among its items, or a text the value's text within it. -/
def contains (a b : Value φ) : Except Fault (Value φ) :=
  match b with
  | .list items => .ok (.bool (items.any fun item => item.isSame a))
  | .text s => .ok (.bool (s.contains a.display))
  | other => .error <| .typeMismatch
      ("`in` expects a list or text on the right, got " ++ other.kind.name)

/-- The left operand if it counts as true, else the right one. -/
def either (a b : Value φ) : Value φ :=
  if a.isTruthy then a else b

/-- The right operand if the left one counts as true, else the left one. -/
def both (a b : Value φ) : Value φ :=
  if a.isTruthy then b else a

/-- The left operand if the right one counts as true, else the right one. -/
def guarded (a b : Value φ) : Value φ :=
  if b.isTruthy then a else b

def binary (f : Value φ → Value φ → Except Fault (Value φ)) : Operator φ :=
  .binary fun a b => liftM (f a b)

def relation (r : Relation) : String × Operator φ :=
  (r.symbol, binary (compare r))

def operators : List (String × Operator φ) :=
  [("+", binary add),
   ("-", (Operator.unary fun a => liftM (negate a)).withBinary
      fun a b => liftM (arithmetic "-" (· - ·) a b)),
   ("*", binary (arithmetic "*" (· * ·))),
   ("/", binary (arithmetic "/" (· / ·))),
   ("^", binary (arithmetic "^" Float.pow)),
   (",", binary fun a b => .ok (guarded a b)),
   (";", binary fun _ b => .ok b),
   relation .greater,
   relation .less,
   relation .greaterEqual,
   relation .lessEqual,
   ("=", binary fun a b => .ok (.bool (a.looselyEqual b))),
   ("!=", binary fun a b => .ok (.bool !(a.looselyEqual b))),
   ("in", binary contains),
   ("and", binary fun a b => .ok (both a b)),
   ("&", binary fun a b => .ok (both a b)),
   ("or", binary fun a b => .ok (either a b)),
   ("|", binary fun a b => .ok (either a b))]

def levels : List (String × Int) :=
  [(";", 0), (",", 5), ("or", 10), ("|", 10), ("and", 15), ("&", 15), ("in", 20), ("=", 20),
   ("!=", 20), (">", 20), ("<", 20), ("<=", 20), (">=", 20), ("+", 30), ("-", 30), ("*", 40),
   ("/", 40), ("^", 60)]

/-- The operators of which, among equals, the rightmost is applied first. -/
def rightAssociative : List String := ["^"]

end Reckoner.Standard
