import Reckoner.Proofs.Phrase.Basic

set_option autoImplicit false

namespace Reckoner

/-- What a place lies directly within. -/
inductive Enclosure where
  | group
  | call
  | array
deriving DecidableEq, Repr

/-- Whether a comma directly within separates. -/
def Enclosure.separates : Enclosure → Bool
  | group => false
  | call => true
  | array => true

inductive Role where
  /-- A number, a string or a word. -/
  | operand
  /-- An operator, a comma that does not separate among them. -/
  | operator
  | separator
  | opener (e : Enclosure)
  | closer
deriving DecidableEq, Repr

namespace Role

def endsOperand : Role → Bool
  | operand => true
  | closer => true
  | _ => false

/-- Whether an operand starts with it, wherever it stands. A `(` starts one or calls one. -/
def startsOperand : Role → Bool
  | operand => true
  | opener .array => true
  | _ => false

def wantsOperand : Role → Bool
  | operator => true
  | separator => true
  | opener .group => true
  | _ => false

/-- Whether the operand of a call, the item of an array or the inner of a group ends before it. -/
def endsPart : Role → Bool
  | separator => true
  | closer => true
  | _ => false

/-- Whether `next` may come directly after a role: not where an operand has to come first. A call or
an array may be closed at once, but what it separates has to be there. -/
def admits : Role → Role → Bool
  | operator, next => !next.endsPart
  | separator, next => !next.endsPart
  | opener .group, next => !next.endsPart
  | opener _, next => next != separator
  | _, _ => true

/-- The role of a mark, within what `outer` has first and after `previous`. -/
def ofMark (outer : List Enclosure) (previous : Option Role) : Mark → Role
  | .number _ => operand
  | .string _ => operand
  | .word _ => operand
  | .operator symbol =>
    if symbol = "," ∧ outer.head?.any Enclosure.separates then separator else operator
  | .openParen => opener (if previous.any endsOperand then .call else .group)
  | .closeParen => closer
  | .openBracket => opener .array
  | .closeBracket => closer

/-- What the place after a role lies within, the innermost first. -/
def enclosing (outer : List Enclosure) : Role → List Enclosure
  | opener e => e :: outer
  | closer => outer.tail
  | _ => outer

def ofMarks (outer : List Enclosure) (previous : Option Role) : List Mark → List Role
  | [] => []
  | m :: rest =>
    let role := ofMark outer previous m
    role :: ofMarks (role.enclosing outer) (some role) rest

def adjacent (roles : List Role) : List (Role × Role) :=
  roles.zip roles.tail

/-- Whether an operand follows directly on another one, with nothing that takes them both. -/
def juxtaposed (role next : Role) : Bool :=
  role.endsOperand && next.startsOperand

/-- How many adjacent roles are juxtaposed operands. -/
def juxtapositions (roles : List Role) : Nat :=
  (adjacent roles).countP fun (role, next) => role.juxtaposed next

end Role

def Token.roles (tokens : List Token) : List Role :=
  Role.ofMarks [] none (tokens.filterMap Token.mark?)

/-- Nothing closes, separates or ends a stream where an operand has to come first. -/
structure Role.WellPlaced (roles : List Role) : Prop where
  between : ∀ pair ∈ Role.adjacent roles, pair.1.admits pair.2 = true
  last : ∀ role ∈ roles.getLast?, role.wantsOperand = false

namespace Role

variable {previous : Option Role} {role : Role} {rest : List Role}

theorem startsOperand_operator (outer : List Enclosure) (previous : Option Role) (symbol : String) :
    (ofMark outer previous (.operator symbol)).startsOperand = false := by
  rw [ofMark]
  split <;> rfl

theorem startsOperand_openParen (outer : List Enclosure) (previous : Option Role) :
    (ofMark outer previous .openParen).startsOperand = false := by
  rw [ofMark]
  split <;> rfl

/-- What ends a part may come wherever no operand has to come first, unless it is a separator. -/
theorem admits_closer {role : Role} (complete : role.wantsOperand = false) :
    role.admits .closer = true := by
  cases role with
  | operand => rfl
  | operator => cases complete
  | separator => cases complete
  | closer => rfl
  | opener e =>
    cases e with
    | group => cases complete
    | call => rfl
    | array => rfl

theorem adjacent_append (previous : Option Role) (role : Role) (rest : List Role) :
    adjacent (previous.toList ++ role :: rest) =
      previous.toList.map (·, role) ++ adjacent (role :: rest) := by
  cases previous <;> rfl

def joined (previous : Option Role) (role : Role) : Nat :=
  if previous.any (·.juxtaposed role) then 1 else 0

theorem joined_of_starts (previous : Option Role) (starts : role.startsOperand = true) :
    joined previous role = if previous.any endsOperand then 1 else 0 := by
  cases previous <;> simp [joined, juxtaposed, starts]

theorem joined_of_not_starts (previous : Option Role) (starts : role.startsOperand = false) :
    joined previous role = 0 := by
  cases previous <;> simp [joined, juxtaposed, starts]

theorem juxtapositions_append (previous : Option Role) (role : Role) (rest : List Role) :
    juxtapositions (previous.toList ++ role :: rest) =
      joined previous role + juxtapositions (role :: rest) := by
  rw [juxtapositions, adjacent_append, List.countP_append]
  cases previous with
  | none => rfl
  | some before =>
    congr 1
    exact List.countP_singleton ..

namespace WellPlaced

theorem admits (placed : WellPlaced (previous.toList ++ role :: rest)) :
    ∀ before ∈ previous, before.admits role = true := by
  intro before here
  obtain rfl := Option.mem_def.1 here
  exact placed.between (before, role) List.mem_cons_self

theorem later (placed : WellPlaced (previous.toList ++ role :: rest)) :
    WellPlaced (role :: rest) := by
  constructor
  · intro pair member
    apply placed.between
    rw [adjacent_append]
    exact List.mem_append_right _ member
  · have same : (previous.toList ++ role :: rest).getLast? = (role :: rest).getLast? := by
      cases previous with
      | none => rfl
      | some before => exact List.getLast?_cons_cons
    rw [← same]
    exact placed.last

end WellPlaced

end Role

end Reckoner
