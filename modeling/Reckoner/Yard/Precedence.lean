import Std.Data.TreeMap

set_option autoImplicit false

namespace Reckoner

structure Precedence where
  /-- The higher, the tighter; an operator may have no level. -/
  levels : Std.TreeMap String Int
  /-- The operators of which, among equals, the rightmost is applied first. -/
  rightAssociative : List String

namespace Precedence

def level? (p : Precedence) (symbol : String) : Option Int :=
  p.levels[symbol]?

def isRightAssociative (p : Precedence) (symbol : String) : Bool :=
  p.rightAssociative.contains symbol

/-- Whether an operator that waits is applied before a binary operator that comes next: it is if it
binds as tightly, or more tightly where the next one is right-associative. An operator without a
level neither goes first nor lets another go first. -/
def goesFirst (p : Precedence) (waiting next : String) : Bool :=
  match p.level? waiting, p.level? next with
  | some w, some n => if p.isRightAssociative next then n < w else n ≤ w
  | _, _ => false

end Precedence

end Reckoner
