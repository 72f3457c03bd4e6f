import Reckoner.Proofs.Yard.Matching

set_option autoImplicit false

namespace Reckoner

/-- The fault at the place that `f` gives for its own, if it has one. -/
def Fault.relocate (f : Nat → Nat) : Fault → Fault
  | unrecognizedCharacter c place => unrecognizedCharacter c (f place)
  | mismatchedBracket place => mismatchedBracket (f place)
  | unmatchedParen place => unmatchedParen (f place)
  | unclosedDelimiter place => unclosedDelimiter (f place)
  | fault => fault

def Token.relocate (f : Nat → Nat) (t : Token) : Token :=
  { t with start := f t.start }

namespace Yard

def Entry.relocate (f : Nat → Nat) : Entry → Entry
  | operator symbol arity => operator symbol arity
  | group start => group (f start)
  | call start count => call (f start) count
  | array start count => array (f start) count

def relocate (f : Nat → Nat) (y : Yard) : Yard :=
  ⟨y.stack.map (Entry.relocate f), y.last⟩

def Step.relocate (f : Nat → Nat) : Step → Step
  | ⟨program, .ok y⟩ => ⟨program, .ok (y.relocate f)⟩
  | ⟨program, .error fault⟩ => ⟨program, .error (fault.relocate f)⟩

variable (f : Nat → Nat) (p : Precedence)

theorem flush_relocate (stack : List Entry) :
    flush (stack.map (Entry.relocate f)) =
      ((flush stack).1, (flush stack).2.map (Entry.relocate f)) := by
  induction stack with
  | nil => rfl
  | cons entry rest ih =>
    cases entry with
    | operator symbol arity =>
      rw [List.map_cons, Entry.relocate, flush, ih]
      rfl
    | group start => rfl
    | call start count => rfl
    | array start count => rfl

theorem separates_relocate (stack : List Entry) :
    separates (stack.map (Entry.relocate f)) = separates stack := by
  induction stack with
  | nil => rfl
  | cons entry rest ih =>
    cases entry with
    | operator symbol arity => exact ih
    | group start => rfl
    | call start count => rfl
    | array start count => rfl

theorem countOne_relocate (stack : List Entry) :
    countOne (stack.map (Entry.relocate f)) = (countOne stack).map (Entry.relocate f) := by
  cases stack with
  | nil => rfl
  | cons entry rest => cases entry <;> rfl

theorem placeBinary_relocate (symbol : String) (stack : List Entry) :
    placeBinary p symbol (stack.map (Entry.relocate f)) =
      (placeBinary p symbol stack).relocate f := by
  cases stack with
  | nil => rfl
  | cons entry rest =>
    cases entry with
    | operator waiting arity =>
      simp only [List.map_cons, Entry.relocate, placeBinary]
      split <;> rfl
    | group start => rfl
    | call start count => rfl
    | array start count => rfl

theorem acceptOperator_relocate (y : Yard) (symbol : String) :
    acceptOperator p (y.relocate f) symbol = (acceptOperator p y symbol).relocate f := by
  have flushed := flush_relocate f y.stack
  have counted := countOne_relocate f (flush y.stack).2
  have placed := placeBinary_relocate f p symbol y.stack
  simp only [acceptOperator, relocate, separates_relocate, flushed, counted, placed]
  split
  · rfl
  · change (if y.afterOperand = true then _ else _) = _
    split <;> rfl

theorem closeParen_relocate (y : Yard) (position : Nat) :
    closeParen (y.relocate f) (f position) = (closeParen y position).relocate f := by
  simp only [closeParen, relocate, flush_relocate]
  rcases flush_cases y.stack with front | ⟨start, rest, front⟩ | ⟨start, count, rest, front⟩ |
      ⟨start, count, rest, front⟩ <;> rw [front] <;> rfl

theorem closeBracket_relocate (y : Yard) (position : Nat) :
    closeBracket (y.relocate f) (f position) = (closeBracket y position).relocate f := by
  simp only [closeBracket, relocate, flush_relocate]
  rcases flush_cases y.stack with front | ⟨start, rest, front⟩ | ⟨start, count, rest, front⟩ |
      ⟨start, count, rest, front⟩ <;> rw [front] <;> rfl

/-- A token that has moved does to a yard whose places have moved what it did before. -/
theorem accept_relocate (y : Yard) (t : Token) :
    (y.relocate f).accept p (t.relocate f) = (y.accept p t).relocate f := by
  cases marked : t.mark? with
  | none =>
    have moved : (t.relocate f).mark? = none := marked
    rw [accept_of_blank marked, accept_of_blank moved]
    rfl
  | some m =>
    have moved : (t.relocate f).mark? = some m := marked
    rw [accept_of_mark marked, accept_of_mark moved]
    cases m with
    | number raw => rfl
    | string raw => rfl
    | word raw => rfl
    | operator symbol => exact acceptOperator_relocate f p y symbol
    | openParen =>
      change proceed .openParen []
        ((if y.afterOperand then .call (f t.start) 1 else .group (f t.start)) :: _) = _
      simp only [acceptMark]
      split <;> rfl
    | closeParen => exact closeParen_relocate f y t.start
    | openBracket => rfl
    | closeBracket => exact closeBracket_relocate f y t.start

theorem finish_relocate (y : Yard) :
    (y.relocate f).finish = (y.finish.1, y.finish.2.map (Fault.relocate f)) := by
  simp only [finish, relocate, flush_relocate]
  rcases flush_cases y.stack with front | ⟨start, rest, front⟩ | ⟨start, count, rest, front⟩ |
      ⟨start, count, rest, front⟩ <;> rw [front] <;> rfl

/-- A run over tokens that have moved sends the same program and ends in the fault that has moved. -/
theorem run_relocate (y : Yard) (tokens : List Token) :
    (y.relocate f).run p ((tokens.map (Token.relocate f)).map .ok) =
      ((y.run p (tokens.map .ok)).1, (y.run p (tokens.map .ok)).2.map (Fault.relocate f)) := by
  induction tokens generalizing y with
  | nil => exact finish_relocate f y
  | cons t rest ih =>
    have moved := accept_relocate f p y t
    rw [List.map_cons, List.map_cons, List.map_cons]
    cases step : y.accept p t with
    | mk sent outcome =>
      rw [step] at moved
      cases outcome with
      | error fault =>
        rw [run_cons_of_error moved, run_cons_of_error step]
        rfl
      | ok next => rw [run_cons_of_ok moved, run_cons_of_ok step, ih next]

variable {p}

/-- The faults that a token alone can be at. -/
def misplacements : List (Nat → Fault) :=
  [.unmatchedParen, .unclosedDelimiter, .mismatchedBracket]

/-- A run ends in a fault of its stream, or in one that lies where a token of the stream stands. -/
theorem exists_token_of_run {items : List (Except Fault Token)} {fault : Fault}
    (failed : (empty.run p items).2 = some fault) :
    .error fault ∈ items ∨
      ∃ raise ∈ misplacements, ∃ t, .ok t ∈ items ∧ fault = raise t.start := by
  have course := course_run p empty items
  rw [failed] at course
  obtain ⟨front, unclosed, passed, ended⟩ := course.exists_passed
  have opened : Opener.Opened unclosed front := .of_afterAll passed
  rcases ended with ⟨_, rfl, same⟩ | ⟨_, f, rest, rfl, same⟩ | ⟨t, rest, f, _, rfl, refused, same⟩
  · cases unclosed with
    | nil => cases same
    | cons o outer =>
      obtain ⟨before, t, inner, rfl, opens, _⟩ := opened.innermost
      refine .inr ⟨.unclosedDelimiter, by simp [misplacements], t, by simp, ?_⟩
      rw [opens.start]
      exact Option.some.inj same
  · obtain rfl := Option.some.inj same
    exact .inl (by simp)
  · obtain rfl := Option.some.inj same
    have latest : .ok t ∈ front.map .ok ++ .ok t :: rest := by simp
    rcases Opener.cases_of_after_error refused with ⟨_, rfl, _⟩ | ⟨start, outer, kind, rfl, rfl⟩ |
        ⟨_, _, rfl⟩
    · exact .inr ⟨.unmatchedParen, by simp [misplacements], t, latest, rfl⟩
    · obtain ⟨before, u, inner, rfl, opens, _⟩ := opened.innermost
      refine .inr ⟨.unclosedDelimiter, by simp [misplacements], u, by simp, ?_⟩
      rw [opens.start]
      rfl
    · exact .inr ⟨.mismatchedBracket, by simp [misplacements], t, latest, rfl⟩

end Yard

namespace Token

variable {tokens : List Token}

def solid (tokens : List Token) : List Token :=
  tokens.filter fun t => t.kind != .whitespace

/-- What tokens say, without the blanks among them and without the places where they stand. -/
def spelling (tokens : List Token) : List (TokenKind × String) :=
  (solid tokens).map fun t => (t.kind, t.raw)

theorem spelling_cons_of_blank {t : Token} (blank : t.kind = .whitespace) (rest : List Token) :
    spelling (t :: rest) = spelling rest := by
  simp [spelling, solid, blank]

theorem spelling_cons_of_solid {t : Token} (other : t.kind ≠ .whitespace) (rest : List Token) :
    spelling (t :: rest) = (t.kind, t.raw) :: spelling rest := by
  simp [spelling, solid, other]

theorem spelling_append (first second : List Token) :
    spelling (first ++ second) = spelling first ++ spelling second := by
  simp [spelling, solid]

/-- Tokens that say what is given, each at its place among them. -/
def placed (said : List (TokenKind × String)) : List Token :=
  said.mapIdx fun place (kind, raw) => ⟨kind, raw, place⟩

def startOf (tokens : List Token) (place : Nat) : Nat :=
  ((solid tokens)[place]?.map start).getD 0

theorem exists_of_mem_placed {said : List (TokenKind × String)} {t : Token}
    (member : t ∈ placed said) : ∃ here, said[t.start]? = some here := by
  obtain ⟨place, found⟩ := List.mem_iff_getElem?.1 member
  rw [placed, List.getElem?_mapIdx, Option.map_eq_some_iff] at found
  obtain ⟨here, said, rfl⟩ := found
  exact ⟨here, said⟩

theorem exists_of_spelling {place : Nat} {here : TokenKind × String}
    (said : (spelling tokens)[place]? = some here) :
    ∃ t, (solid tokens)[place]? = some t ∧ startOf tokens place = t.start := by
  rw [spelling, List.getElem?_map, Option.map_eq_some_iff] at said
  obtain ⟨t, found, _⟩ := said
  exact ⟨t, found, by simp [startOf, found]⟩

/-- Tokens that are not blank are told by what they say and by where they stand. -/
theorem solid_eq_relocate (tokens : List Token) :
    solid tokens = (placed (spelling tokens)).map (relocate (startOf tokens)) := by
  apply List.ext_getElem?
  intro place
  simp only [placed, spelling, List.getElem?_map, List.getElem?_mapIdx, Option.map_map]
  cases found : (solid tokens)[place]? with
  | none => rfl
  | some t =>
    have start : startOf tokens place = t.start := by simp [startOf, found]
    simp [relocate, start]

end Token

namespace Yard

variable {p : Precedence}

theorem run_solid (y : Yard) (tokens : List Token) :
    y.run p ((Token.solid tokens).map .ok) = y.run p (tokens.map .ok) := by
  induction tokens generalizing y with
  | nil => rfl
  | cons t rest ih =>
    by_cases blank : t.kind = .whitespace
    · have unmarked : t.mark? = none := by simp [Token.mark?, blank]
      rw [Token.solid, List.filter_cons_of_neg (by simp [blank]), List.map_cons,
        run_cons_of_ok (accept_of_blank unmarked p y), List.nil_append]
      exact ih y
    · rw [Token.solid, List.filter_cons_of_pos (by simp [blank]), List.map_cons, List.map_cons]
      cases step : y.accept p t with
      | mk sent outcome =>
        cases outcome with
        | error fault => rw [run_cons_of_error step, run_cons_of_error step]
        | ok next =>
          rw [run_cons_of_ok step, run_cons_of_ok step]
          exact congrArg (fun later => (sent ++ later.1, later.2)) (ih next)

theorem relocate_of_mem_misplacements {raise : Nat → Fault} (member : raise ∈ misplacements)
    (f : Nat → Nat) (place : Nat) : (raise place).relocate f = raise (f place) := by
  simp only [misplacements, List.mem_cons, List.not_mem_nil, or_false] at member
  rcases member with rfl | rfl | rfl <;> rfl

/-- A run over tokens is the run over what they say, with a fault moved to where its token stands. -/
theorem run_eq_relocate (tokens : List Token) :
    let said := (Token.placed (Token.spelling tokens)).map (.ok : Token → Except Fault Token)
    empty.run p (tokens.map .ok) =
      ((empty.run p said).1, (empty.run p said).2.map (Fault.relocate (Token.startOf tokens))) := by
  intro said
  rw [← run_solid, Token.solid_eq_relocate]
  exact run_relocate (Token.startOf tokens) p empty _

/-- Of tokens that say the same the same program is made, and where one run ends in a fault the other
ends in the same fault at the corresponding token. -/
theorem run_of_spelling {tokens others : List Token}
    (same : Token.spelling others = Token.spelling tokens) :
    (empty.run p (others.map .ok)).1 = (empty.run p (tokens.map .ok)).1 ∧
      ((empty.run p (tokens.map .ok)).2 = none ∧ (empty.run p (others.map .ok)).2 = none ∨
        ∃ raise ∈ misplacements, ∃ (place : Nat) (t u : Token),
          (Token.solid tokens)[place]? = some t ∧ (Token.solid others)[place]? = some u ∧
          (empty.run p (tokens.map .ok)).2 = some (raise t.start) ∧
          (empty.run p (others.map .ok)).2 = some (raise u.start)) := by
  rw [run_eq_relocate tokens, run_eq_relocate others, same]
  refine ⟨rfl, ?_⟩
  cases ended : (empty.run p ((Token.placed (Token.spelling tokens)).map .ok)).2 with
  | none => exact .inl ⟨rfl, rfl⟩
  | some fault =>
    rcases exists_token_of_run ended with raised | ⟨raise, member, b, within, rfl⟩
    · simp at raised
    · have known : b ∈ Token.placed (Token.spelling tokens) := by simpa using within
      obtain ⟨here, said⟩ := Token.exists_of_mem_placed known
      obtain ⟨t, found, start⟩ := Token.exists_of_spelling said
      rw [← same] at said
      obtain ⟨u, found', start'⟩ := Token.exists_of_spelling said
      refine .inr ⟨raise, member, b.start, t, u, found, found', ?_, ?_⟩
      · rw [← start, ← relocate_of_mem_misplacements member]
        rfl
      · rw [← start', ← relocate_of_mem_misplacements member]
        rfl

end Yard

end Reckoner
