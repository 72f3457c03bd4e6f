import Reckoner.Proofs.Tree.Basic
import Reckoner.Token.Basic
import Reckoner.Yard.Precedence

set_option autoImplicit false

/-!
The grammar of expressions, and the tree that an expression stands for.

A phrase is one context: the whole input, a group, an operand of a call or an item of an array. It
is a chain of atoms with operators before and between them. Which operands an operator of the chain
takes depends on the one operator after it and on nothing else.
-/

namespace Reckoner

/-- What a token that is not blank means to an expression. -/
inductive Mark where
  | number (raw : String)
  | string (raw : String)
  | word (raw : String)
  | operator (symbol : String)
  | openParen
  | closeParen
  | openBracket
  | closeBracket
deriving DecidableEq, Repr

def Token.mark? (t : Token) : Option Mark :=
  match t.kind with
  | .number => some (.number t.raw)
  | .string => some (.string t.raw)
  | .word => some (.word t.raw)
  | .operator => some (.operator t.raw)
  | .whitespace => none
  | .openParen => some .openParen
  | .closeParen => some .closeParen
  | .openBracket => some .openBracket
  | .closeBracket => some .closeBracket

theorem Token.mark?_eq_operator_iff {t : Token} {symbol : String} :
    t.mark? = some (.operator symbol) ↔ t.kind = .operator ∧ t.raw = symbol := by
  unfold mark?
  cases kind : t.kind <;> simp

mutual

/-- An operand together with the calls that follow it. -/
inductive Atom where
  | number (raw : String)
  | string (raw : String)
  | word (raw : String)
  | group (inner : Phrase)
  | array (items : List Phrase)
  | call (callee : Atom) (operands : List Phrase)

/-- A chain of atoms: any number of operators before each, and one between any two. -/
inductive Phrase where
  | atom (a : Atom)
  | unary (symbol : String) (rest : Phrase)
  | binary (left : Atom) (symbol : String) (rest : Phrase)

end

mutual

def Atom.marks : Atom → List Mark
  | .number raw => [.number raw]
  | .string raw => [.string raw]
  | .word raw => [.word raw]
  | .group inner => .openParen :: (inner.marks ++ [.closeParen])
  | .array items => .openBracket :: (Phrase.separated items ++ [.closeBracket])
  | .call callee operands =>
    callee.marks ++ .openParen :: (Phrase.separated operands ++ [.closeParen])

def Phrase.marks : Phrase → List Mark
  | .atom a => a.marks
  | .unary symbol rest => .operator symbol :: rest.marks
  | .binary left symbol rest => left.marks ++ .operator symbol :: rest.marks

def Phrase.separated : List Phrase → List Mark
  | [] => []
  | [e] => e.marks
  | e :: next :: rest => e.marks ++ .operator "," :: Phrase.separated (next :: rest)

end

mutual

/-- Whether commas are operators within groups only, and never directly within a call or array. -/
def Atom.commasFit : Atom → Bool
  | .number _ => true
  | .string _ => true
  | .word _ => true
  | .group inner => inner.commasFit false
  | .array items => Phrase.allCommasFit items
  | .call callee operands => callee.commasFit && Phrase.allCommasFit operands

/-- Whether commas fit in a phrase, the operators of the phrase itself among them where `separates`
says that a comma would end it. -/
def Phrase.commasFit (separates : Bool) : Phrase → Bool
  | .atom a => a.commasFit
  | .unary symbol rest => !(separates && symbol == ",") && rest.commasFit separates
  | .binary left symbol rest =>
    left.commasFit && !(separates && symbol == ",") && rest.commasFit separates

def Phrase.allCommasFit : List Phrase → Bool
  | [] => true
  | e :: rest => e.commasFit true && Phrase.allCommasFit rest

end

namespace Precedence

/-- Whether both operators have a level, and the one that waits binds as tightly as the next one or,
where the next one is right-associative, more tightly. -/
def Outranks (p : Precedence) (waiting next : String) : Prop :=
  ∃ m n, p.level? waiting = some m ∧ p.level? next = some n ∧
    if p.isRightAssociative next then n < m else n ≤ m

theorem goesFirst_iff {p : Precedence} {waiting next : String} :
    p.goesFirst waiting next = true ↔ p.Outranks waiting next := by
  unfold goesFirst Outranks
  cases p.level? waiting with
  | none => simp
  | some m =>
    cases p.level? next with
    | none => simp
    | some n => by_cases right : p.isRightAssociative next <;> simp [right]

instance (p : Precedence) (waiting next : String) : Decidable (p.Outranks waiting next) :=
  decidable_of_iff _ goesFirst_iff

end Precedence

/-- The latest operator of a context, which waits for its last operand. A binary one has as its left
operand all that was gathered since the last late operator. -/
inductive Waiting where
  | nothing
  | unary (symbol : String)
  | binary (left : Tree) (symbol : String)

namespace Waiting

/-- Whether the waiting operator is early: whether it goes first when `next` is the operator after
it and is binary. An operator before a prefix operator, or the last one, is late. -/
def IsEarly (p : Precedence) (next : String) : Waiting → Prop
  | nothing => False
  | unary symbol => p.Outranks symbol next
  | binary _ symbol => p.Outranks symbol next

instance (p : Precedence) (next : String) (w : Waiting) : Decidable (w.IsEarly p next) :=
  match w with
  | nothing => inferInstanceAs (Decidable False)
  | unary symbol => inferInstanceAs (Decidable (p.Outranks symbol next))
  | binary _ symbol => inferInstanceAs (Decidable (p.Outranks symbol next))

/-- What comes of it with its last operand. -/
def complete : Waiting → Tree → Tree
  | nothing, t => t
  | unary symbol, t => .apply symbol [t]
  | binary left symbol, t => .apply symbol [left, t]

end Waiting

mutual

/-- The tree of an atom, where each phrase within is a context of its own. -/
def Atom.tree (p : Precedence) : Atom → Tree
  | .number raw => .literal (.ofNumeral raw)
  | .string raw => .literal (.ofEnclosed raw)
  | .word raw => .name raw
  | .group inner => inner.tree p .nothing
  | .array items => .collect (Phrase.trees p items)
  | .call callee operands => .call (callee.tree p) (Phrase.trees p operands)

/-- The tree of what is left of a context after the waiting operator, and of that operator. If it is
early it takes the next atom alone, and what comes of that is the left operand of the operator
after it. If it is late it takes all the rest of the context. -/
def Phrase.tree (p : Precedence) (w : Waiting) : Phrase → Tree
  | .atom a => w.complete (a.tree p)
  | .unary symbol rest => w.complete (rest.tree p (.unary symbol))
  | .binary left symbol rest =>
    if w.IsEarly p symbol then rest.tree p (.binary (w.complete (left.tree p)) symbol)
    else w.complete (rest.tree p (.binary (left.tree p) symbol))

def Phrase.trees (p : Precedence) : List Phrase → List Tree
  | [] => []
  | e :: rest => e.tree p .nothing :: Phrase.trees p rest

end

@[simp] theorem Phrase.length_trees (p : Precedence) (phrases : List Phrase) :
    (Phrase.trees p phrases).length = phrases.length := by
  induction phrases with
  | nil => rfl
  | cons e rest ih => simp only [Phrase.trees, List.length_cons, ih]

theorem Atom.length_marks_pos (a : Atom) : 0 < a.marks.length := by
  cases a <;> simp only [Atom.marks, List.length_append, List.length_cons] <;> omega

theorem Phrase.length_marks_pos (e : Phrase) : 0 < e.marks.length := by
  cases e with
  | atom a => exact a.length_marks_pos
  | unary symbol rest => exact Nat.succ_pos _
  | binary left symbol rest =>
    have positive := left.length_marks_pos
    rw [Phrase.marks, List.length_append]
    omega

theorem Phrase.length_le_separated (es : List Phrase) :
    es.length ≤ (Phrase.separated es).length := by
  induction es with
  | nil => exact Nat.zero_le _
  | cons e rest ih =>
    have positive := e.length_marks_pos
    cases rest with
    | nil => exact positive
    | cons next others =>
      rw [Phrase.separated, List.length_append]
      simp only [List.length_cons] at ih ⊢
      omega

end Reckoner
