import Reckoner.Proofs.Token.Quotation
import Reckoner.Proofs.Token.Spelling

set_option autoImplicit false

namespace Reckoner

namespace Term

/-- A digit, and then digits and points. -/
structure Numeral where
  first : Char
  rest : List Char
  first_isDigit : first.isDigit = true
  rest_within : rest.all (fun c => c.isDigit || c = '.') = true

def Numeral.raw (n : Numeral) : String :=
  String.ofList (n.first :: n.rest)

/-- A text between two equal quotes that are not in it. -/
structure Quotation where
  delimiter : Char
  body : String
  isQuote : delimiter = '\x22' ∨ delimiter = '\x27'
  not_mem_body : delimiter ∉ body.toList

def Quotation.raw (q : Quotation) : String :=
  String.ofList (q.delimiter :: (q.body.toList ++ [q.delimiter]))

/-- Letters, digits and underscores, with no digit and no symbol of an operator at the front. -/
structure Name where
  raw : String
  first_not_digit : ∃ c ∈ raw.toList.head?, c.isDigit = false
  within : raw.toList.all CharClasses.isWordChar = true
  apart : ∀ s ∈ Standard.symbols, ¬ s.toList <+: raw.toList

abbrev Symbol := { s : String // s ∈ Standard.symbols }

end Term

inductive Term where
  | number (n : Term.Numeral)
  | string (q : Term.Quotation)
  | name (n : Term.Name)
  | unary (symbol : Term.Symbol) (operand : Term)
  | binary (left : Term) (symbol : Term.Symbol) (right : Term)
  | array (items : List Term)
  | call (callee : Term) (operands : List Term)

namespace Term

mutual

def tree : Term → Tree
  | number n => .literal (.ofNumeral n.raw)
  | string q => .literal (.text q.body)
  | name n => .name n.raw
  | unary symbol operand => .apply symbol [operand.tree]
  | binary left symbol right => .apply symbol [left.tree, right.tree]
  | array items => .collect (trees items)
  | call callee operands => .call callee.tree (trees operands)

def trees : List Term → List Tree
  | [] => []
  | t :: rest => t.tree :: trees rest

end

mutual

/-- A term as an operand, with every application in a group of its own. -/
def atom : Term → Atom
  | number n => .number n.raw
  | string q => .string q.raw
  | name n => .word n.raw
  | unary symbol operand => .group (.unary symbol (.atom operand.atom))
  | binary left symbol right => .group (.binary left.atom symbol (.atom right.atom))
  | array items => .array (phrases items)
  | call callee operands => .call callee.atom (phrases operands)

def phrases : List Term → List Phrase
  | [] => []
  | t :: rest => .atom t.atom :: phrases rest

end

/-- A term as a source, with one space between any two tokens. -/
def text (t : Term) : String :=
  Mark.spaced t.atom.marks

theorem ofEnclosed_raw (q : Quotation) : Literal.ofEnclosed q.raw = .text q.body := by
  have quoted : q.raw = Literal.quoted q.delimiter q.body true := rfl
  rw [quoted, Literal.ofEnclosed_quoted q.not_mem_body]

mutual

/-- The groups leave precedence no choice. -/
theorem tree_atom (p : Precedence) (t : Term) : t.atom.tree p = t.tree := by
  cases t with
  | number n => rfl
  | string q =>
    rw [atom, tree, Atom.tree, ofEnclosed_raw]
  | name n => rfl
  | unary symbol operand =>
    rw [atom, tree, ← tree_atom p operand]
    rfl
  | binary left symbol right =>
    rw [atom, tree, ← tree_atom p left, ← tree_atom p right]
    rfl
  | array items =>
    rw [atom, tree, ← trees_phrases p items, Atom.tree]
  | call callee operands =>
    rw [atom, tree, ← tree_atom p callee, ← trees_phrases p operands, Atom.tree]

theorem trees_phrases (p : Precedence) (ts : List Term) :
    Phrase.trees p (phrases ts) = trees ts := by
  cases ts with
  | nil => rfl
  | cons t rest =>
    rw [phrases, trees, Phrase.trees, Phrase.tree, tree_atom p t, trees_phrases p rest]
    rfl

end

mutual

theorem commasFit_atom (t : Term) : t.atom.commasFit = true := by
  cases t with
  | number n => rfl
  | string q => rfl
  | name n => rfl
  | unary symbol operand =>
    simp only [atom, Atom.commasFit, Phrase.commasFit, commasFit_atom operand, Bool.false_and,
      Bool.not_false, Bool.and_true]
  | binary left symbol right =>
    simp only [atom, Atom.commasFit, Phrase.commasFit, commasFit_atom left, commasFit_atom right,
      Bool.false_and, Bool.not_false, Bool.and_true]
  | array items =>
    rw [atom, Atom.commasFit, commasFit_phrases items]
  | call callee operands =>
    rw [atom, Atom.commasFit, commasFit_atom callee, commasFit_phrases operands, Bool.and_true]

theorem commasFit_phrases (ts : List Term) : Phrase.allCommasFit (phrases ts) = true := by
  cases ts with
  | nil => rfl
  | cons t rest =>
    rw [phrases, Phrase.allCommasFit, Phrase.commasFit, commasFit_atom t, commasFit_phrases rest,
      Bool.and_true]

end

end Term

end Reckoner
