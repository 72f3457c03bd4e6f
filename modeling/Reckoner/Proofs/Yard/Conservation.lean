import Reckoner.Proofs.Phrase.Placement
import Reckoner.Proofs.Yard.Balance
import Reckoner.Proofs.Yard.Moves

set_option autoImplicit false

/-!
A yard loses nothing, makes nothing up and keeps the order of values.

An operator leaves the yard for another operator, for a comma or a delimiter, or at the end, and
only once: what was sent and what still waits are at each point the applications that the tokens so
far asked for. This holds of every stream, whether the grammar spells it or not.
-/

namespace Reckoner

namespace Yard

variable {p : Precedence} {y next : Yard} {t : Token} {m : Mark} {outer : List Enclosure}
  {previous : Option Role} {start : Nat}

def waiting (stack : List Entry) : Program :=
  stack.filterMap fun
    | .operator symbol arity => some (.apply symbol arity)
    | _ => none

@[simp] theorem waiting_countOne (stack : List Entry) :
    waiting (countOne stack) = waiting stack := by
  unfold countOne
  split <;> rfl

/-- What a flush sends and what it leaves waited before. -/
theorem flush_append_waiting (stack : List Entry) :
    (flush stack).1 ++ waiting (flush stack).2 = waiting stack := by
  induction stack with
  | nil => rfl
  | cons entry rest ih =>
    cases entry with
    | operator symbol arity => exact congrArg (Instruction.apply symbol arity :: ·) ih
    | group start => rfl
    | call start count => rfl
    | array start count => rfl

theorem exists_apply_of_mem_flush {stack : List Entry} {i : Instruction}
    (member : i ∈ (flush stack).1) : ∃ symbol arity, i = .apply symbol arity := by
  have waited : i ∈ waiting stack := by
    rw [← flush_append_waiting]
    exact List.mem_append_left _ member
  obtain ⟨entry, _, sent⟩ := List.mem_filterMap.1 waited
  cases entry with
  | operator symbol arity => exact ⟨symbol, arity, (Option.some.inj sent).symm⟩
  | _ => cases sent

theorem filterMap_fst_flush {α : Type} {f : Instruction → Option α}
    (other : ∀ symbol arity, f (.apply symbol arity) = none) (stack : List Entry) :
    (flush stack).1.filterMap f = [] := by
  rw [List.filterMap_eq_nil_iff]
  intro i member
  obtain ⟨symbol, arity, rfl⟩ := exists_apply_of_mem_flush member
  exact other symbol arity

theorem filter_fst_flush {f : Instruction → Bool}
    (other : ∀ symbol arity, f (.apply symbol arity) = false) (stack : List Entry) :
    (flush stack).1.filter f = [] := by
  rw [← List.filterMap_eq_filter]
  refine filterMap_fst_flush (fun symbol arity => ?_) stack
  rw [Option.guard, other symbol arity]
  rfl

@[simp] theorem filter_isApplication_flush (stack : List Entry) :
    (flush stack).1.filter Instruction.isApplication = (flush stack).1 := by
  rw [List.filter_eq_self]
  intro i member
  obtain ⟨symbol, arity, rfl⟩ := exists_apply_of_mem_flush member
  rfl

@[simp] theorem filter_isOperand_flush (stack : List Entry) :
    (flush stack).1.filter Instruction.isOperand = [] :=
  filter_fst_flush (fun _ _ => rfl) stack

@[simp] theorem filterMap_enclosure?_flush (stack : List Entry) :
    (flush stack).1.filterMap Instruction.enclosure? = [] :=
  filterMap_fst_flush (fun _ _ => rfl) stack

/-- The openers on the stack are what the next token lies within, and `previous` is the role of the
latest one, as far as it tells whether an operand has ended. -/
structure Tracks (y : Yard) (outer : List Enclosure) (previous : Option Role) : Prop where
  enclosed : enclosures y.stack = outer
  operand : y.afterOperand = previous.any Role.endsOperand

theorem tracks_empty : empty.Tracks [] none := ⟨rfl, rfl⟩

theorem Tracks.separates (tracks : y.Tracks outer previous) :
    Yard.separates y.stack = outer.head?.any Enclosure.separates := by
  rw [separates_eq, tracks.enclosed]

theorem Tracks.ofMark_comma (tracks : y.Tracks outer previous)
    (counted : Yard.separates y.stack = true) :
    Role.ofMark outer previous (.operator ",") = .separator := by
  rw [tracks.separates] at counted
  exact Role.ofMark_comma counted previous

theorem Tracks.ofMark_operator {symbol : String} (tracks : y.Tracks outer previous)
    (plain : ¬ (symbol = "," ∧ Yard.separates y.stack = true)) :
    Role.ofMark outer previous (.operator symbol) = .operator := by
  rw [tracks.separates] at plain
  rw [Role.ofMark, if_neg plain]

/-- What a closer finds at the front of a flushed stack is the innermost of what it lies within. -/
theorem Tracks.flushed {entry : Entry} {rest : List Entry} {e : Enclosure}
    (tracks : y.Tracks outer previous) (front : (flush y.stack).2 = entry :: rest)
    (opens : entry.enclosure? = some e) : outer = e :: enclosures rest := by
  have kept := enclosures_flush y.stack
  rw [front, tracks.enclosed, enclosures, List.filterMap_cons_some opens] at kept
  exact kept.symm

/-- A step without a fault keeps track of the role of its mark. -/
theorem Move.tracks {s : Step} (move : Move p y start m s) (tracks : y.Tracks outer previous)
    (passed : s.outcome = .ok next) :
    next.Tracks ((Role.ofMark outer previous m).enclosing outer)
      (some (Role.ofMark outer previous m)) := by
  cases move with
  | operand asks =>
    obtain rfl := Except.ok.inj passed
    rw [Role.ofMark_of_operand? asks]
    exact ⟨tracks.enclosed, Mark.endsOperand_kind_of_operand? asks⟩
  | separate counted =>
    obtain rfl := Except.ok.inj passed
    rw [tracks.ofMark_comma counted]
    refine ⟨?_, rfl⟩
    rw [enclosures_countOne, enclosures_flush, tracks.enclosed]
    rfl
  | overtake plain after top =>
    obtain rfl := Except.ok.inj passed
    rw [tracks.ofMark_operator plain]
    have enclosed := tracks.enclosed
    rw [top] at enclosed
    exact ⟨enclosed, rfl⟩
  | join plain =>
    obtain rfl := Except.ok.inj passed
    rw [tracks.ofMark_operator plain]
    exact ⟨tracks.enclosed, rfl⟩
  | openGroup before =>
    obtain rfl := Except.ok.inj passed
    rw [Role.ofMark, ← tracks.operand, before]
    exact ⟨congrArg (Enclosure.group :: ·) tracks.enclosed, rfl⟩
  | openCall after =>
    obtain rfl := Except.ok.inj passed
    rw [Role.ofMark, ← tracks.operand, after]
    exact ⟨congrArg (Enclosure.call :: ·) tracks.enclosed, rfl⟩
  | openArray =>
    obtain rfl := Except.ok.inj passed
    exact ⟨congrArg (Enclosure.array :: ·) tracks.enclosed, rfl⟩
  | closeGroup front =>
    obtain rfl := Except.ok.inj passed
    rw [tracks.flushed front rfl]
    exact ⟨rfl, rfl⟩
  | closeCall front =>
    obtain rfl := Except.ok.inj passed
    rw [tracks.flushed front rfl]
    exact ⟨rfl, rfl⟩
  | closeArray front =>
    obtain rfl := Except.ok.inj passed
    rw [tracks.flushed front rfl]
    exact ⟨rfl, rfl⟩
  | failParen => cases passed
  | failBracket => cases passed

/-- A step without a fault sends a call for the delimiters of a call that close, a list for those of
an array, and nothing for those of a group. -/
theorem Move.filterMap_enclosure? {s : Step} (move : Move p y start m s)
    (tracks : y.Tracks outer previous) (passed : s.outcome = .ok next) :
    s.program.filterMap Instruction.enclosure? =
      ((Role.ofMark outer previous m).closing outer).filter (· != .group) := by
  cases move with
  | @operand _ i asks =>
    rw [Role.ofMark_of_operand? asks]
    have operand := Mark.isOperand_of_operand? asks
    cases i with
    | push l => rfl
    | load s => rfl
    | apply symbol arity => cases operand
    | collect count => cases operand
    | call arity => cases operand
  | separate counted =>
    rw [tracks.ofMark_comma counted]
    exact filterMap_enclosure?_flush y.stack
  | overtake plain after top => rw [tracks.ofMark_operator plain]; rfl
  | join plain => rw [tracks.ofMark_operator plain]; rfl
  | openGroup before => rfl
  | openCall after => rfl
  | openArray => rfl
  | closeGroup front =>
    rw [tracks.flushed front rfl]
    exact filterMap_enclosure?_flush y.stack
  | closeCall front =>
    rw [tracks.flushed front rfl]
    simp only [proceed, List.filterMap_append, filterMap_enclosure?_flush]
    rfl
  | closeArray front =>
    rw [tracks.flushed front rfl]
    simp only [proceed, List.filterMap_append, filterMap_enclosure?_flush]
    rfl
  | failParen => cases passed
  | failBracket => cases passed

theorem Move.filter_isOperand {s : Step} (move : Move p y start m s) :
    s.program.filter Instruction.isOperand = m.operand?.toList := by
  cases move with
  | operand asks =>
    have operand := Mark.isOperand_of_operand? asks
    simp [proceed, asks, operand]
  | separate counted => exact filter_isOperand_flush y.stack
  | overtake plain after top => rfl
  | join plain => rfl
  | openGroup before => rfl
  | openCall after => rfl
  | openArray => rfl
  | closeGroup front => exact filter_isOperand_flush y.stack
  | closeCall front => simp [proceed, Instruction.isOperand, Mark.operand?]
  | closeArray front => simp [proceed, Instruction.isOperand, Mark.operand?]
  | failParen => exact filter_isOperand_flush y.stack
  | failBracket => exact filter_isOperand_flush y.stack

/-- What a step sends and leaves waiting makes up the applications of `asked`. Where it fails
nothing is left waiting, and what it has not sent is lost. -/
def Step.Conserves (s : Step) (asked : Program) : Prop :=
  ∃ kept, (s.program.filter Instruction.isApplication ++ kept).Perm asked ∧
    ∀ next, s.outcome = .ok next → kept = waiting next.stack

theorem Step.Conserves.of_proceed {kind : TokenKind} {program : Program} {stack : List Entry}
    {asked : Program}
    (kept : (program.filter Instruction.isApplication ++ waiting stack).Perm asked) :
    (proceed kind program stack).Conserves asked := by
  refine ⟨waiting stack, kept, ?_⟩
  rintro next ⟨rfl⟩
  rfl

theorem Step.Conserves.of_flush {stack : List Entry} {fault : Fault} :
    (Step.mk (flush stack).1 (.error fault)).Conserves (waiting stack) := by
  refine ⟨waiting (flush stack).2, ?_, nofun⟩
  rw [filter_isApplication_flush]
  exact .of_eq (flush_append_waiting stack)

/-- A mark adds the application that it asks for to those that wait. -/
theorem Move.conserves {s : Step} (move : Move p y start m s) (tracks : y.Tracks outer previous) :
    s.Conserves ((Role.application? previous m (Role.ofMark outer previous m)).toList ++
      waiting y.stack) := by
  have flushed := flush_append_waiting y.stack
  cases move with
  | operand asks =>
    apply Step.Conserves.of_proceed
    cases m <;> cases asks <;> exact .refl _
  | separate counted =>
    rw [tracks.ofMark_comma counted]
    apply Step.Conserves.of_proceed
    rw [filter_isApplication_flush, waiting_countOne]
    exact .of_eq flushed
  | overtake plain after top =>
    rw [tracks.ofMark_operator plain, Role.application?, ← tracks.operand, after, top]
    exact .of_proceed (.swap _ _ _)
  | join plain =>
    rw [tracks.ofMark_operator plain, Role.application?, ← tracks.operand]
    exact .of_proceed (.refl _)
  | openGroup before => exact .of_proceed (.refl _)
  | openCall after => exact .of_proceed (.refl _)
  | openArray => exact .of_proceed (.refl _)
  | closeGroup front =>
    rw [front] at flushed
    apply Step.Conserves.of_proceed
    rw [filter_isApplication_flush]
    exact .of_eq flushed
  | closeCall front =>
    rw [front] at flushed
    apply Step.Conserves.of_proceed
    rw [List.filter_append, filter_isApplication_flush]
    exact .of_eq ((congrArg (· ++ _) (List.append_nil _)).trans flushed)
  | closeArray front =>
    rw [front] at flushed
    apply Step.Conserves.of_proceed
    rw [List.filter_append, filter_isApplication_flush]
    exact .of_eq ((congrArg (· ++ _) (List.append_nil _)).trans flushed)
  | failParen => exact .of_flush
  | failBracket => exact .of_flush

/-- The tokens that a run takes in: all of them up to the first fault, the one that raises it among
them. -/
def taken (p : Precedence) (y : Yard) : List (Except Fault Token) → List Token
  | [] => []
  | .error _ :: _ => []
  | .ok t :: rest =>
    t :: match (y.accept p t).outcome with
      | .ok next => next.taken p rest
      | .error _ => []

/-- The course of a run over a stream: what it takes in, what it sends and how it ends. -/
inductive Course (p : Precedence) :
    Yard → List (Except Fault Token) → List Token → Program → Option Fault → Prop
  /-- The stream ends, and with it what waits is sent. -/
  | ends (y : Yard) : Course p y [] [] (flush y.stack).1 y.finish.2
  /-- The stream has a fault of its own. -/
  | stops (y : Yard) (fault : Fault) (rest : List (Except Fault Token)) :
      Course p y (.error fault :: rest) [] [] (some fault)
  | fails {y : Yard} {t : Token} {sent : Program} {fault : Fault}
      (step : y.accept p t = ⟨sent, .error fault⟩) (rest : List (Except Fault Token)) :
      Course p y (.ok t :: rest) [t] sent (some fault)
  | passes {y next : Yard} {t : Token} {sent later : Program} {fault : Option Fault}
      {rest : List (Except Fault Token)} {others : List Token}
      (step : y.accept p t = ⟨sent, .ok next⟩) (course : Course p next rest others later fault) :
      Course p y (.ok t :: rest) (t :: others) (sent ++ later) fault

theorem finish_fst (y : Yard) : y.finish.1 = (flush y.stack).1 := by
  simp only [finish]
  split <;> rfl

theorem flush_of_finish (ended : y.finish.2 = none) : (flush y.stack).2 = [] := by
  simp only [finish] at ended
  rcases flush_cases y.stack with front | ⟨start, rest, front⟩ | ⟨start, count, rest, front⟩ |
      ⟨start, count, rest, front⟩ <;> rw [front] at ended
  · exact front
  all_goals cases ended

theorem course_run (p : Precedence) (y : Yard) (items : List (Except Fault Token)) :
    Course p y items (y.taken p items) (y.run p items).1 (y.run p items).2 := by
  induction items generalizing y with
  | nil =>
    rw [run, finish_fst]
    exact .ends y
  | cons item rest ih =>
    cases item with
    | error fault => exact .stops y fault rest
    | ok t =>
      simp only [taken]
      cases step : y.accept p t with
      | mk sent outcome =>
        cases outcome with
        | error fault =>
          rw [run_cons_of_error step]
          exact .fails step rest
        | ok next =>
          rw [run_cons_of_ok step]
          exact .passes step (ih next)

variable {items : List (Except Fault Token)} {tokens : List Token} {program : Program}
  {fault : Option Fault}

theorem Course.items_eq (course : Course p y items tokens program fault) (clean : fault = none) :
    items = tokens.map .ok := by
  induction course with
  | ends y => rfl
  | stops y fault rest => cases clean
  | fails step rest => cases clean
  | passes step course ih => rw [ih clean, List.map_cons]

theorem Course.exists_items (course : Course p y items tokens program fault) :
    ∃ rest, items = tokens.map .ok ++ rest := by
  induction course with
  | ends y => exact ⟨[], rfl⟩
  | stops y fault rest => exact ⟨_, rfl⟩
  | fails step rest => exact ⟨rest, rfl⟩
  | passes step course ih =>
    obtain ⟨rest, same⟩ := ih
    exact ⟨rest, by rw [same, List.map_cons, List.cons_append]⟩

theorem filter_isOperand_accept (p : Precedence) (y : Yard) (t : Token) :
    (y.accept p t).program.filter Instruction.isOperand = Token.operands [t] := by
  cases marked : t.mark? with
  | none => simp [accept_of_blank marked, Token.operands, marked]
  | some m =>
    rw [(move_accept marked).filter_isOperand]
    cases asks : m.operand? <;> simp [Token.operands, marked, asks]

/-- The values that a run sends are those that its tokens ask for, in their order. -/
theorem Course.filter_isOperand (course : Course p y items tokens program fault) :
    program.filter Instruction.isOperand = Token.operands tokens := by
  induction course with
  | ends y => exact filter_isOperand_flush y.stack
  | stops y fault rest => rfl
  | @fails y t sent fault step rest =>
    have here := filter_isOperand_accept p y t
    rwa [step] at here
  | @passes y next t sent later fault rest others step course ih =>
    have here := filter_isOperand_accept p y t
    rw [step] at here
    rw [List.filter_append, Token.operands_cons, here, ih]

/-- The applications that a run sends, and those that it keeps at a fault, are those that its tokens
ask for and those that waited before. -/
theorem Course.exists_kept (course : Course p y items tokens program fault)
    (tracks : y.Tracks outer previous) :
    ∃ kept, (program.filter Instruction.isApplication ++ kept).Perm
        (Role.applications outer previous (tokens.filterMap Token.mark?) ++ waiting y.stack) ∧
      (fault = none → kept = []) := by
  induction course generalizing outer previous with
  | ends y =>
    refine ⟨waiting (flush y.stack).2, ?_, fun ended => ?_⟩
    · rw [filter_isApplication_flush]
      exact .of_eq (flush_append_waiting y.stack)
    · rw [flush_of_finish ended]
      rfl
  | stops y fault rest => exact ⟨waiting y.stack, .refl _, fun clean => by cases clean⟩
  | @fails y t sent fault step rest =>
    cases marked : t.mark? with
    | none => cases (accept_of_blank marked p y).symm.trans step
    | some m =>
      have move := move_accept (p := p) (y := y) marked
      obtain ⟨kept, sum, _⟩ := move.conserves tracks
      rw [step] at sum
      rw [List.filterMap_cons_some marked]
      refine ⟨kept, ?_, fun clean => by cases clean⟩
      simpa only [List.filterMap_nil, Role.applications, List.append_nil] using sum
  | @passes y next t sent later fault rest others step course ih =>
    cases marked : t.mark? with
    | none =>
      cases (accept_of_blank marked p y).symm.trans step
      rw [List.filterMap_cons_none marked]
      exact ih tracks
    | some m =>
      have move := move_accept (p := p) (y := y) marked
      obtain ⟨held, sum, left⟩ := move.conserves tracks
      rw [step] at move sum left
      obtain ⟨kept, total, clean⟩ := ih (move.tracks tracks rfl)
      obtain rfl := left next rfl
      refine ⟨kept, ?_, clean⟩
      rw [List.filterMap_cons_some marked, List.filter_append, List.append_assoc,
        Role.applications, List.append_assoc]
      -- What waits after the token is what the rest of the run starts with, and is left out here.
      generalize Role.applications _ _ (others.filterMap Token.mark?) = further at total ⊢
      generalize (Role.application? previous m _).toList = here at sum ⊢
      calc sent.filter Instruction.isApplication ++ (later.filter Instruction.isApplication ++ kept)
        List.Perm _ (sent.filter Instruction.isApplication ++ (waiting next.stack ++ further)) :=
          (total.trans List.perm_append_comm).append_left _
        List.Perm _ (here ++ waiting y.stack ++ further) := by
          rw [← List.append_assoc]
          exact sum.append_right further
        List.Perm _ (here ++ (further ++ waiting y.stack)) := by
          rw [List.append_assoc]
          exact List.perm_append_comm.append_left here

/-- What a run without a fault sends for delimiters is what its tokens close, and nothing is open in
the end. -/
theorem Course.filterMap_enclosure? (course : Course p y items tokens program fault)
    (tracks : y.Tracks outer previous) (clean : fault = none) :
    program.filterMap Instruction.enclosure? =
        (Role.closings outer (Role.ofMarks outer previous (tokens.filterMap Token.mark?))).filter
          (· != .group) ∧
      Role.enclosingAll outer (Role.ofMarks outer previous (tokens.filterMap Token.mark?)) =
        [] := by
  induction course generalizing outer previous with
  | ends y =>
    have kept := enclosures_flush y.stack
    rw [flush_of_finish clean, tracks.enclosed] at kept
    exact ⟨filterMap_enclosure?_flush y.stack, kept.symm⟩
  | stops y fault rest => cases clean
  | fails step rest => cases clean
  | @passes y next t sent later fault rest others step course ih =>
    cases marked : t.mark? with
    | none =>
      cases (accept_of_blank marked p y).symm.trans step
      rw [List.filterMap_cons_none marked]
      exact ih tracks clean
    | some m =>
      have move := move_accept (p := p) (y := y) marked
      rw [step] at move
      have here := move.filterMap_enclosure? tracks rfl
      obtain ⟨further, closed⟩ := ih (move.tracks tracks rfl) clean
      rw [List.filterMap_cons_some marked]
      refine ⟨?_, closed⟩
      rw [List.filterMap_append, here, further, ← List.filter_append]
      rfl

end Yard

/-- Ordering a stream sends the values that the tokens taken in ask for, in their order, and no
application but theirs, each at most once. Without a fault all tokens are taken in, and the
instructions do what they ask for and nothing else. -/
theorem Config.items_conserve {φ σ : Type} [Source σ (Except Fault Token)] (config : Config φ)
    (source : σ) :
    ∃ (program : Program) (fault : Option Fault),
      Source.items (config.instructions source) = program.stream fault ∧
      let taken := Yard.empty.taken config.precedence (Source.items source)
      program.filter Instruction.isOperand = Token.operands taken ∧
      (∃ kept, (program.filter Instruction.isApplication ++ kept).Perm
        (Token.applications taken)) ∧
      (fault = none → Source.items source = taken.map .ok ∧ program.Meets taken) := by
  have course := Yard.course_run config.precedence .empty (Source.items source)
  have operands := course.filter_isOperand
  obtain ⟨kept, total, nothing⟩ := course.exists_kept Yard.tracks_empty
  rw [show Yard.waiting Yard.empty.stack = [] from rfl, List.append_nil] at total
  refine ⟨_, _, Stage.items_new config.precedence source, operands, ⟨kept, total⟩, ?_⟩
  intro clean
  obtain rfl := nothing clean
  rw [List.append_nil] at total
  have ⟨closings, closed⟩ := course.filterMap_enclosure? Yard.tracks_empty clean
  have matched := Role.closings_perm []
    (Token.roles (Yard.empty.taken config.precedence (Source.items source)))
  rw [List.append_nil, Token.roles, closed, List.append_nil] at matched
  refine ⟨course.items_eq clean, operands, total, closings, matched.filter _, ?_⟩
  rw [Program.length_eq_add, operands, total.length_eq, closings]
  rfl

end Reckoner
