set_option autoImplicit false

namespace Reckoner

inductive Kind where
  | missing
  | number
  | text
  | bool
  | list
  | callable
deriving DecidableEq, Repr

namespace Kind

def name : Kind → String
  | missing => "missing"
  | number => "number"
  | text => "text"
  | bool => "bool"
  | list => "list"
  | callable => "callable"

end Kind

/-- Positions are offsets into the source, counted in bytes of its UTF-8 form. -/
inductive Fault where
  /-- No rule for tokens covers this character. -/
  | unrecognizedCharacter (char : Char) (position : Nat)
  /-- A `]` with no `[` open. -/
  | mismatchedBracket (position : Nat)
  /-- A `)` whose innermost open delimiter is not a `(`. -/
  | unmatchedParen (position : Nat)
  /-- A `(` or `[` that nothing closed; the position is that of the opener. -/
  | unclosedDelimiter (position : Nat)
  | unknownOperator (symbol : String)
  | unsupportedArity (symbol : String) (arity : Nat)
  | notCallable (kind : Kind)
  | typeMismatch (detail : String)
  | argumentCount (expected found : Nat)
  /-- A failure reported by a function of the host, in its own words. -/
  | host (message : String)
deriving DecidableEq, Repr

namespace Fault

def message : Fault → String
  | unrecognizedCharacter char position =>
    "unrecognized character `" ++ char.toString ++ "` at position " ++ toString position
  | mismatchedBracket position => "mismatched brackets at position " ++ toString position
  | unmatchedParen position => "unmatched parenthesis at position " ++ toString position
  | unclosedDelimiter position => "unclosed delimiter opened at position " ++ toString position
  | unknownOperator symbol => "unknown operator `" ++ symbol ++ "`"
  | unsupportedArity symbol arity =>
    "operator `" ++ symbol ++ "` has no implementation for arity " ++ toString arity
  | notCallable kind => "value of type " ++ kind.name ++ " is not callable"
  | typeMismatch detail => "type mismatch: " ++ detail
  | argumentCount expected found =>
    "expected " ++ toString expected ++ " argument(s), found " ++ toString found
  | host text => text

def position? : Fault → Option Nat
  | unrecognizedCharacter _ position => some position
  | mismatchedBracket position => some position
  | unmatchedParen position => some position
  | unclosedDelimiter position => some position
  | _ => none

/-- The faults that splitting a source into tokens can raise. -/
def isLexical : Fault → Bool
  | unrecognizedCharacter .. => true
  | mismatchedBracket .. => true
  | _ => false

end Fault

end Reckoner
