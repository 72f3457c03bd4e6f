import Reckoner.Lexicon.Basic
import Reckoner.Operator.Standard
import Reckoner.Yard.Precedence

set_option autoImplicit false

/-!
Configurations: what an expression can use and how it is read.

A configuration is the standard one with settings applied to it in order, so of two settings of the
same thing the later one holds.
-/

namespace Reckoner

abbrev Table (α : Type) := Std.TreeMap String α

structure Config (φ : Type) where
  operators : Table (Operator φ)
  /-- The values that names stand for. -/
  environment : Table (Value φ)
  precedence : Precedence
  classes : CharClasses

/-- One choice about a configuration; the plural ones replace a whole table. -/
inductive Setting (φ : Type) where
  | operators (table : Table (Operator φ))
  | operator (symbol : String) (o : Operator φ)
  | environment (table : Table (Value φ))
  | bind (name : String) (value : Value φ)
  | levels (table : Table Int)
  | level (symbol : String) (n : Int)
  | rightAssociative (symbols : List String)
  | charClass (role : CharRole) (members : Char → Bool)

namespace Config

variable {φ : Type}

/-- The standard operators, nothing bound, and the standard classes of characters. -/
def standard : Config φ where
  operators := .ofList Standard.operators
  environment := ∅
  precedence := ⟨.ofList Standard.levels, Standard.rightAssociative⟩
  classes := .standard

def set (c : Config φ) : Setting φ → Config φ
  | .operators table => { c with operators := table }
  | .operator symbol o => { c with operators := c.operators.insert symbol o }
  | .environment table => { c with environment := table }
  | .bind name value => { c with environment := c.environment.insert name value }
  | .levels table => { c with precedence.levels := table }
  | .level symbol n => { c with precedence.levels := c.precedence.levels.insert symbol n }
  | .rightAssociative symbols => { c with precedence.rightAssociative := symbols }
  | .charClass role members => { c with classes := c.classes.update role members }

/-- The standard configuration with the settings applied, the first one first. -/
def build (settings : List (Setting φ)) : Config φ :=
  settings.foldl set standard

def withBindings (bindings : List (String × Value φ)) : Config φ :=
  build (bindings.map fun (name, value) => .bind name value)

def operator? (c : Config φ) (symbol : String) : Option (Operator φ) :=
  c.operators[symbol]?

def bound? (c : Config φ) (name : String) : Option (Value φ) :=
  c.environment[name]?

def symbols (c : Config φ) : List String :=
  Lexicon.longestFirst c.operators.keys

def lexicon (c : Config φ) : Lexicon :=
  ⟨c.symbols, c.classes⟩

theorem mem_symbols {c : Config φ} {symbol : String} :
    symbol ∈ c.symbols ↔ symbol ∈ c.operators := by
  simp [symbols]

end Config

end Reckoner
