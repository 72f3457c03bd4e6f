import Reckoner.Instruction.Basic
import Reckoner.Proofs.Token.Role

set_option autoImplicit false

namespace Reckoner

namespace Instruction

/-- Whether it puts a value on the stack and takes none. -/
def isOperand : Instruction → Bool
  | push _ => true
  | load _ => true
  | _ => false

def isApplication : Instruction → Bool
  | apply _ _ => true
  | _ => false

def enclosure? : Instruction → Option Enclosure
  | collect _ => some .array
  | call _ => some .call
  | _ => none

end Instruction

def Mark.operand? : Mark → Option Instruction
  | number raw => some (.push (.ofNumeral raw))
  | string raw => some (.push (.ofEnclosed raw))
  | word raw => some (.load raw)
  | _ => none

theorem Mark.isOperand_of_operand? {m : Mark} {i : Instruction} (asks : m.operand? = some i) :
    i.isOperand = true := by
  cases m <;> cases asks <;> rfl

namespace Role

theorem ofMark_of_operand? {m : Mark} {i : Instruction} (asks : m.operand? = some i)
    (outer : List Enclosure) (previous : Option Role) : ofMark outer previous m = operand := by
  cases m <;> first | rfl | cases asks

/-- The application that a mark asks for: of two operands right after one, else of one operand. -/
def application? (previous : Option Role) (m : Mark) (role : Role) : Option Instruction :=
  match m, role with
  | .operator symbol, operator =>
    some (.apply symbol (if previous.any endsOperand then 2 else 1))
  | _, _ => none

/-- The applications that marks within `outer` and after `previous` ask for. -/
def applications (outer : List Enclosure) (previous : Option Role) : List Mark → Program
  | [] => []
  | m :: rest =>
    let role := ofMark outer previous m
    (application? previous m role).toList ++ applications (role.enclosing outer) (some role) rest

theorem exists_of_mem_applications {outer : List Enclosure} {previous : Option Role}
    {marks : List Mark} {i : Instruction} (member : i ∈ applications outer previous marks) :
    ∃ symbol arity, i = .apply symbol arity ∧ .operator symbol ∈ marks ∧
      (arity = 1 ∨ arity = 2) := by
  induction marks generalizing outer previous with
  | nil => cases member
  | cons m rest ih =>
    rcases List.mem_append.1 member with here | later
    · rw [Option.mem_toList] at here
      unfold application? at here
      split at here
      · obtain rfl := Option.some.inj here
        refine ⟨_, _, rfl, List.mem_cons_self, ?_⟩
        split
        · exact .inr rfl
        · exact .inl rfl
      · cases here
    · obtain ⟨symbol, arity, same, spelled, operands⟩ := ih later
      exact ⟨symbol, arity, same, List.mem_cons_of_mem m spelled, operands⟩

/-- What a role closes of what it lies within. -/
def closing (outer : List Enclosure) : Role → List Enclosure
  | closer => outer.head?.toList
  | _ => []

def closings (outer : List Enclosure) : List Role → List Enclosure
  | [] => []
  | role :: rest => role.closing outer ++ closings (role.enclosing outer) rest

def opening? : Role → Option Enclosure
  | opener e => some e
  | _ => none

def openings (roles : List Role) : List Enclosure :=
  roles.filterMap opening?

def enclosingAll (outer : List Enclosure) (roles : List Role) : List Enclosure :=
  roles.foldl enclosing outer

/-- What is closed and what is still open make up what was opened and what was open before. -/
theorem closings_perm (outer : List Enclosure) (roles : List Role) :
    (closings outer roles ++ enclosingAll outer roles).Perm (openings roles ++ outer) := by
  induction roles generalizing outer with
  | nil => exact List.Perm.refl outer
  | cons role rest ih =>
    have later := ih (role.enclosing outer)
    cases role with
    | operand => exact later
    | operator => exact later
    | separator => exact later
    | opener e => exact later.trans List.perm_middle
    | closer =>
      cases outer with
      | nil => exact later
      | cons innermost others => exact (later.cons innermost).trans List.perm_middle.symm

end Role

namespace Token

def operands (tokens : List Token) : Program :=
  (tokens.filterMap mark?).filterMap Mark.operand?

theorem operands_cons (t : Token) (rest : List Token) :
    operands (t :: rest) = operands [t] ++ operands rest := by
  rw [operands, ← List.singleton_append, List.filterMap_append, List.filterMap_append]
  rfl

def applications (tokens : List Token) : Program :=
  Role.applications [] none (tokens.filterMap mark?)

/-- What the tokens close that calls for an instruction: a group calls for none. -/
def closings (tokens : List Token) : List Enclosure :=
  (Role.closings [] (roles tokens)).filter (· != .group)

def openings (tokens : List Token) : List Enclosure :=
  (Role.openings (roles tokens)).filter (· != .group)

end Token

theorem Program.length_eq_add (program : Program) :
    program.length = (program.filter Instruction.isOperand).length +
      (program.filter Instruction.isApplication).length +
      (program.filterMap Instruction.enclosure?).length := by
  induction program with
  | nil => rfl
  | cons i rest ih =>
    cases i <;>
      simp [List.filter_cons, List.filterMap_cons, Instruction.isOperand,
        Instruction.isApplication, Instruction.enclosure?, ih] <;> omega

/-- A program does what tokens ask for and nothing else: it puts their values on the stack in their
order, applies each of their operators once, and has one instruction for the delimiters of each call
and each array, in the order in which they close. -/
structure Program.Meets (program : Program) (tokens : List Token) : Prop where
  operands : program.filter Instruction.isOperand = Token.operands tokens
  applications : (program.filter Instruction.isApplication).Perm (Token.applications tokens)
  closings : program.filterMap Instruction.enclosure? = Token.closings tokens
  closed : (Token.closings tokens).Perm (Token.openings tokens)
  length : program.length = (Token.operands tokens).length + (Token.applications tokens).length +
    (Token.closings tokens).length

end Reckoner
