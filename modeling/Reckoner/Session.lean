import Reckoner.Evaluation

set_option autoImplicit false

namespace Reckoner

structure Session (φ : Type) where
  config : Config φ
  /-- The programs, the earliest first. -/
  programs : List Program

namespace Session

variable {φ : Type}

def new : Session φ := ⟨.standard, []⟩

/-- With another configuration; the programs stay as they were compiled. -/
def configure (s : Session φ) (config : Config φ) : Session φ :=
  { s with config := config }

/-- Compiles a source and keeps its program; a source at fault leaves the session as it is. -/
def compile (s : Session φ) (source : String) : Except Fault Program × Session φ :=
  match s.config.compile source with
  | .ok program => (.ok program, { s with programs := s.programs ++ [program] })
  | .error fault => (.error fault, s)

def run? [Host φ] (s : Session φ) (index : Nat) : Option (Except Fault (Value φ)) :=
  s.programs[index]?.map s.config.run

def execute [Host φ] (s : Session φ) (source : String) : Except Fault (Value φ) :=
  s.config.execute source

end Session

end Reckoner
