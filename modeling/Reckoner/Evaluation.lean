import Reckoner.Machine
import Reckoner.Token.Lexer
import Reckoner.Yard.Stage

set_option autoImplicit false

/-!
From a source to its value.

`execute` splits, orders and evaluates in one go: each stage pulls from the one before it, so a
fault of the evaluation comes before any fault further right in the source. `compile` keeps the
instructions, and `run` carries them out as often as one likes.
-/

namespace Reckoner.Config

variable {φ : Type}

def tokens (config : Config φ) (source : String) : Lexer :=
  Lexer.new config.lexicon source

def instructions {σ : Type} (config : Config φ) (tokens : σ) : Stage σ :=
  Stage.new config.precedence tokens

/-- The value of a stream of instructions, and what is left of the stream. -/
def evaluate [Host φ] {σ : Type} [Source σ (Except Fault Instruction)] (config : Config φ)
    (instructions : σ) : Except Fault (Value φ) × σ :=
  let (outcome, rest) := Machine.empty.runSource config instructions
  (outcome.map Machine.finish, rest)

def run [Host φ] (config : Config φ) (program : Program) : Except Fault (Value φ) :=
  (Machine.empty.runProgram config program).map Machine.finish

def compile (config : Config φ) (source : String) : Except Fault Program :=
  (Source.items (config.instructions (config.tokens source))).mapM id

def execute [Host φ] (config : Config φ) (source : String) : Except Fault (Value φ) :=
  (config.evaluate (config.instructions (config.tokens source))).1

end Reckoner.Config
