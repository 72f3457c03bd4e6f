import Reckoner.Lexicon.Symbols
import Reckoner.Text.Blank

set_option autoImplicit false

namespace Reckoner

inductive CharRole where
  | wordStart
  | wordBody
  | whitespace
  | numberStart
  | numberBody
  | stringHead
deriving DecidableEq, Repr

abbrev CharClasses := CharRole → Char → Bool

namespace CharClasses

def isWordChar (c : Char) : Bool :=
  c.isAlphanum || c = '_'

/-- Words of letters, digits and underscores; numbers of digits and points; strings in single or
double quotes. -/
def standard : CharClasses
  | .wordStart => isWordChar
  | .wordBody => isWordChar
  | .whitespace => Text.isBlank
  | .numberStart => Char.isDigit
  | .numberBody => fun c => c.isDigit || c = '.'
  | .stringHead => fun c => c = '\x22' || c = '\x27'

def update (classes : CharClasses) (role : CharRole) (members : Char → Bool) : CharClasses :=
  fun r => if r = role then members else classes r

@[simp] theorem update_same (classes : CharClasses) (role : CharRole) (members : Char → Bool) :
    classes.update role members role = members := by
  simp [update]

@[simp] theorem update_other (classes : CharClasses) {role other : CharRole} (h : other ≠ role)
    (members : Char → Bool) : classes.update role members other = classes other := by
  simp [update, h]

end CharClasses

structure Lexicon where
  /-- The operator symbols, in the order in which they are tried. -/
  symbols : List String
  classes : CharClasses

namespace Lexicon

/-- The first symbol, in their order, that a text begins with. The empty symbol never counts. -/
def symbolAt? (l : Lexicon) (cs : List Char) : Option String :=
  l.symbols.find? fun s => !s.isEmpty && s.toList.isPrefixOf cs

end Lexicon

end Reckoner
