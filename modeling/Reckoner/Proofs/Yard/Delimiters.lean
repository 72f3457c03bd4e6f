import Reckoner.Evaluation
import Reckoner.Yard.Stream

set_option autoImplicit false

/-!
The delimiters that a yard accepts.

The openers on the stack of a yard are the delimiters that nothing has closed yet, so the fault that
ends a run is that of a matcher which looks at delimiters alone: `items_fault`. A stream without a
fault is one whose delimiters are nested.
-/

namespace Reckoner

/-- A delimiter that nothing has closed yet, and where it stands. -/
inductive Opener where
  | paren (start : Nat)
  | bracket (start : Nat)
deriving DecidableEq, Repr

namespace Opener

def start : Opener → Nat
  | paren start => start
  | bracket start => start

def closer : Opener → TokenKind
  | paren _ => .closeParen
  | bracket _ => .closeBracket

/-- What is open after a token, the innermost first. Tokens that are no delimiters change nothing. -/
def after (unclosed : List Opener) (t : Token) : Except Fault (List Opener) :=
  match t.kind with
  | .openParen => .ok (paren t.start :: unclosed)
  | .openBracket => .ok (bracket t.start :: unclosed)
  | .closeParen =>
    match unclosed with
    | paren _ :: outer => .ok outer
    | _ => .error (.unmatchedParen t.start)
  | .closeBracket =>
    match unclosed with
    | bracket _ :: outer => .ok outer
    | paren start :: _ => .error (.unclosedDelimiter start)
    | [] => .error (.mismatchedBracket t.start)
  | _ => .ok unclosed

/-- The first fault in reading order; at the end the innermost opener is at fault. -/
def firstFault (unclosed : List Opener) : List (Except Fault Token) → Option Fault
  | [] => unclosed.head?.map fun innermost => .unclosedDelimiter innermost.start
  | .error fault :: _ => some fault
  | .ok t :: rest =>
    match after unclosed t with
    | .ok inner => firstFault inner rest
    | .error fault => some fault

def afterAll (unclosed : List Opener) : List Token → Except Fault (List Opener)
  | [] => .ok unclosed
  | t :: rest =>
    match after unclosed t with
    | .ok inner => afterAll inner rest
    | .error fault => .error fault

section afterAll

variable {unclosed inner : List Opener} {t : Token} {tokens : List Token}

theorem afterAll_cons_of_ok (step : after unclosed t = .ok inner) (rest : List Token) :
    afterAll unclosed (t :: rest) = afterAll inner rest := by
  simp only [afterAll, step]

theorem exists_of_afterAll_cons {rest : List Token} {last : List Opener}
    (passed : afterAll unclosed (t :: rest) = .ok last) :
    ∃ inner, after unclosed t = .ok inner ∧ afterAll inner rest = .ok last := by
  cases step : after unclosed t with
  | ok inner => exact ⟨inner, rfl, (afterAll_cons_of_ok step rest).symm.trans passed⟩
  | error fault =>
    simp only [afterAll, step] at passed
    cases passed

theorem afterAll_append_of_ok (front : afterAll unclosed tokens = .ok inner)
    (later : List Token) : afterAll unclosed (tokens ++ later) = afterAll inner later := by
  induction tokens generalizing unclosed with
  | nil =>
    obtain rfl := Except.ok.inj front
    rfl
  | cons t rest ih =>
    obtain ⟨between, step, remaining⟩ := exists_of_afterAll_cons front
    rw [List.cons_append, afterAll_cons_of_ok step, ih remaining]

theorem afterAll_append_of_error {fault : Fault} (failed : afterAll unclosed tokens = .error fault)
    (later : List Token) : afterAll unclosed (tokens ++ later) = .error fault := by
  induction tokens generalizing unclosed with
  | nil => cases failed
  | cons t rest ih =>
    simp only [List.cons_append, afterAll] at failed ⊢
    split at failed
    · exact ih failed
    · exact failed

theorem firstFault_of_afterAll (front : afterAll unclosed tokens = .ok inner)
    (items : List (Except Fault Token)) :
    firstFault unclosed (tokens.map .ok ++ items) = firstFault inner items := by
  induction tokens generalizing unclosed with
  | nil =>
    obtain rfl := Except.ok.inj front
    rfl
  | cons t rest ih =>
    obtain ⟨between, step, remaining⟩ := exists_of_afterAll_cons front
    simp only [List.map_cons, List.cons_append, firstFault, step]
    exact ih remaining

end afterAll

end Opener

namespace TokenKind

/-- What closes an opener. -/
def closer? : TokenKind → Option TokenKind
  | openParen => some closeParen
  | openBracket => some closeBracket
  | _ => none

def isDelimiter : TokenKind → Bool
  | openParen => true
  | closeParen => true
  | openBracket => true
  | closeBracket => true
  | _ => false

end TokenKind

namespace Opener

structure Is (o : Opener) (t : Token) : Prop where
  start : t.start = o.start
  closer : t.kind.closer? = some o.closer

variable {unclosed inner : List Opener} {t : Token}

theorem Is.kind_cases {o : Opener} (opens : o.Is t) :
    (t.kind = .openParen ∧ o = paren t.start) ∨ (t.kind = .openBracket ∧ o = bracket t.start) := by
  obtain ⟨start, pair⟩ := opens
  cases o with
  | paren place =>
    refine .inl ⟨?_, congrArg paren start.symm⟩
    cases kind : t.kind <;> rw [kind] at pair <;> first | rfl | cases pair
  | bracket place =>
    refine .inr ⟨?_, congrArg bracket start.symm⟩
    cases kind : t.kind <;> rw [kind] at pair <;> first | rfl | cases pair

/-- What the matcher passes: an opener, the closer of the innermost one, and what is no delimiter. -/
theorem cases_of_after (passed : after inner t = .ok unclosed) :
    (∃ o, Is o t ∧ unclosed = o :: inner) ∨ (∃ o, inner = o :: unclosed ∧ t.kind = o.closer) ∨
      (t.kind.isDelimiter = false ∧ unclosed = inner) := by
  unfold after at passed
  split at passed
  · next kind =>
    exact .inl ⟨paren t.start, ⟨rfl, by rw [kind]; rfl⟩, (Except.ok.inj passed).symm⟩
  · next kind =>
    exact .inl ⟨bracket t.start, ⟨rfl, by rw [kind]; rfl⟩, (Except.ok.inj passed).symm⟩
  · next kind =>
    split at passed
    · next start outer => exact .inr (.inl ⟨paren start, by rw [Except.ok.inj passed], kind⟩)
    · cases passed
  · next kind =>
    split at passed
    · next start outer => exact .inr (.inl ⟨bracket start, by rw [Except.ok.inj passed], kind⟩)
    · cases passed
    · cases passed
  · refine .inr (.inr ⟨?_, (Except.ok.inj passed).symm⟩)
    cases kind : t.kind <;> simp_all [TokenKind.isDelimiter]

/-- What the matcher refuses: a `)` whose innermost open delimiter is no `(`, a `]` whose innermost
open delimiter is a `(`, and a `]` with nothing open. -/
theorem cases_of_after_error {fault : Fault}
    (refused : after unclosed t = .error fault) :
    (t.kind = .closeParen ∧ fault = .unmatchedParen t.start ∧
        ∀ start outer, unclosed ≠ paren start :: outer) ∨
      (∃ start outer, t.kind = .closeBracket ∧ unclosed = paren start :: outer ∧
        fault = .unclosedDelimiter start) ∨
      (t.kind = .closeBracket ∧ unclosed = [] ∧ fault = .mismatchedBracket t.start) := by
  unfold after at refused
  split at refused
  · cases refused
  · cases refused
  · next kind =>
    split at refused
    · cases refused
    · next noParen => exact .inl ⟨kind, (Except.error.inj refused).symm, noParen⟩
  · next kind =>
    split at refused
    · cases refused
    · next start outer =>
      exact .inr (.inl ⟨start, outer, kind, rfl, (Except.error.inj refused).symm⟩)
    · exact .inr (.inr ⟨kind, rfl, (Except.error.inj refused).symm⟩)
  · cases refused

end Opener

/-- Tokens in which every opener is closed by its own closer, and none within another. -/
inductive Nested : List Token → Prop
  | nil : Nested []
  | plain {t : Token} {rest : List Token} (other : t.kind.isDelimiter = false)
      (remaining : Nested rest) : Nested (t :: rest)
  | enclosed {opener closer : Token} {inner rest : List Token}
      (pair : opener.kind.closer? = some closer.kind) (inside : Nested inner)
      (remaining : Nested rest) : Nested (opener :: (inner ++ closer :: rest))

namespace Nested

theorem append {first second : List Token} (front : Nested first) (back : Nested second) :
    Nested (first ++ second) := by
  induction front with
  | nil => exact back
  | plain other _ ih => exact .plain other ih
  | enclosed pair inside _ _ ih =>
    simp only [List.cons_append, List.append_assoc]
    exact .enclosed pair inside ih

theorem afterAll {tokens : List Token} (nested : Nested tokens) (unclosed : List Opener) :
    Opener.afterAll unclosed tokens = .ok unclosed := by
  induction nested generalizing unclosed with
  | nil => rfl
  | @plain t rest other _ ih =>
    have unchanged : Opener.after unclosed t = .ok unclosed := by
      unfold Opener.after
      cases kind : t.kind <;> simp_all [TokenKind.isDelimiter]
    rw [Opener.afterAll_cons_of_ok unchanged]
    exact ih unclosed
  | @enclosed opener closer inner rest pair _ _ insideIh restIh =>
    have opens : ∃ o, Opener.after unclosed opener = .ok (o :: unclosed) ∧
        Opener.after (o :: unclosed) closer = .ok unclosed := by
      unfold Opener.after
      cases kind : opener.kind <;> simp only [kind, TokenKind.closer?, reduceCtorEq] at pair
      · exact ⟨.paren opener.start, rfl, by simp [← Option.some.inj pair]⟩
      · exact ⟨.bracket opener.start, rfl, by simp [← Option.some.inj pair]⟩
    obtain ⟨o, opened, closed⟩ := opens
    rw [Opener.afterAll_cons_of_ok opened, Opener.afterAll_append_of_ok (insideIh _),
      Opener.afterAll_cons_of_ok closed]
    exact restIh unclosed

theorem firstFault_append {tokens : List Token} (nested : Nested tokens) (unclosed : List Opener)
    (items : List (Except Fault Token)) :
    Opener.firstFault unclosed (tokens.map .ok ++ items) = Opener.firstFault unclosed items :=
  Opener.firstFault_of_afterAll (nested.afterAll unclosed) items

end Nested

/-- Tokens that close what is open, the innermost first, and are nested apart from that. -/
def Closes : List Opener → List Token → Prop
  | [], tokens => Nested tokens
  | innermost :: outer, tokens => ∃ inner closer rest,
      tokens = inner ++ closer :: rest ∧ closer.kind = innermost.closer ∧
        Nested inner ∧ Closes outer rest

namespace Closes

theorem prepend {front tokens : List Token} {unclosed : List Opener} (nested : Nested front)
    (closes : Closes unclosed tokens) : Closes unclosed (front ++ tokens) := by
  cases unclosed with
  | nil => exact nested.append closes
  | cons innermost outer =>
    obtain ⟨inner, closer, rest, rfl, kind, inside, remaining⟩ := closes
    refine ⟨front ++ inner, closer, rest, ?_, kind, nested.append inside, remaining⟩
    rw [List.append_assoc]

/-- An opener is closed together with what is open around it. -/
theorem opener {t : Token} {tokens : List Token} {unclosed : List Opener} {o : Opener}
    (pair : t.kind.closer? = some o.closer) (closes : Closes (o :: unclosed) tokens) :
    Closes unclosed (t :: tokens) := by
  obtain ⟨inner, closer, rest, rfl, kind, inside, remaining⟩ := closes
  have whole : Nested (t :: (inner ++ closer :: [])) :=
    .enclosed (by rw [pair, kind]) inside .nil
  simpa only [List.cons_append, List.append_assoc, List.nil_append] using prepend whole remaining

theorem closer {t : Token} {tokens : List Token} {unclosed : List Opener} {o : Opener}
    (kind : t.kind = o.closer) (closes : Closes unclosed tokens) :
    Closes (o :: unclosed) (t :: tokens) :=
  ⟨[], t, tokens, rfl, kind, .nil, closes⟩

/-- Without a fault everything that was open gets closed. -/
theorem of_firstFault {tokens : List Token} {unclosed : List Opener}
    (clean : Opener.firstFault unclosed (tokens.map .ok) = none) : Closes unclosed tokens := by
  induction tokens generalizing unclosed with
  | nil =>
    cases unclosed with
    | nil => exact Nested.nil
    | cons innermost outer => simp [Opener.firstFault] at clean
  | cons t rest ih =>
    simp only [List.map_cons, Opener.firstFault] at clean
    cases step : Opener.after unclosed t with
    | error fault => simp [step] at clean
    | ok next =>
      rw [step] at clean
      have closes := ih clean
      rcases Opener.cases_of_after step with ⟨o, opens, rfl⟩ | ⟨o, rfl, kind⟩ | ⟨other, rfl⟩
      · exact opener opens.closer closes
      · exact closer kind closes
      · exact prepend (.plain other .nil) closes

end Closes

/-- A stream that the matcher passes has no fault of its own. -/
theorem Opener.exists_tokens_of_firstFault {items : List (Except Fault Token)}
    {unclosed : List Opener} (clean : firstFault unclosed items = none) :
    ∃ tokens : List Token, items = tokens.map .ok := by
  induction items generalizing unclosed with
  | nil => exact ⟨[], rfl⟩
  | cons item rest ih =>
    cases item with
    | error fault => simp [firstFault] at clean
    | ok t =>
      simp only [firstFault] at clean
      split at clean
      · obtain ⟨tokens, rfl⟩ := ih clean
        exact ⟨t :: tokens, rfl⟩
      · cases clean

theorem Opener.firstFault_eq_none_iff (items : List (Except Fault Token)) :
    firstFault [] items = none ↔ ∃ tokens : List Token, items = tokens.map .ok ∧ Nested tokens := by
  constructor
  · intro clean
    obtain ⟨tokens, rfl⟩ := exists_tokens_of_firstFault clean
    exact ⟨tokens, rfl, Closes.of_firstFault clean⟩
  · rintro ⟨tokens, rfl, nested⟩
    have passed := nested.firstFault_append [] []
    rwa [List.append_nil] at passed

namespace Yard

def Entry.opener? : Entry → Option Opener
  | .operator _ _ => none
  | .group start => some (.paren start)
  | .call start _ => some (.paren start)
  | .array start _ => some (.bracket start)

def openers (stack : List Entry) : List Opener :=
  stack.filterMap Entry.opener?

theorem filterMap_flush {α : Type} {g : Entry → Option α}
    (operators : ∀ symbol arity, g (.operator symbol arity) = none) (stack : List Entry) :
    (flush stack).2.filterMap g = stack.filterMap g := by
  induction stack with
  | nil => rfl
  | cons entry rest ih =>
    cases entry with
    | operator symbol arity => rw [flush, ih, List.filterMap_cons_none (operators symbol arity)]
    | group start => rfl
    | call start count => rfl
    | array start count => rfl

@[simp] theorem openers_flush (stack : List Entry) : openers (flush stack).2 = openers stack :=
  filterMap_flush (fun _ _ => rfl) stack

@[simp] theorem openers_countOne (stack : List Entry) : openers (countOne stack) = openers stack := by
  unfold countOne
  split <;> rfl

/-- A flush leaves nothing, or an opener on top. -/
theorem flush_cases (stack : List Entry) :
    (flush stack).2 = [] ∨ (∃ start rest, (flush stack).2 = .group start :: rest) ∨
      (∃ start count rest, (flush stack).2 = .call start count :: rest) ∨
      ∃ start count rest, (flush stack).2 = .array start count :: rest := by
  induction stack with
  | nil => exact Or.inl rfl
  | cons entry below ih =>
    cases entry with
    | operator symbol arity => exact ih
    | group start => exact Or.inr (Or.inl ⟨start, below, rfl⟩)
    | call start count => exact Or.inr (Or.inr (Or.inl ⟨start, count, below, rfl⟩))
    | array start count => exact Or.inr (Or.inr (Or.inr ⟨start, count, below, rfl⟩))

theorem openers_placeBinary (p : Precedence) (symbol : String) (stack : List Entry) :
    (placeBinary p symbol stack).outcome.map (fun y => openers y.stack) = .ok (openers stack) := by
  unfold placeBinary
  split
  · split <;> rfl
  · rfl

theorem openers_acceptOperator (p : Precedence) (y : Yard) (symbol : String) :
    (acceptOperator p y symbol).outcome.map (fun z => openers z.stack) = .ok (openers y.stack) := by
  unfold acceptOperator
  split
  · simp [proceed, Except.map]
  · split
    · exact openers_placeBinary p symbol y.stack
    · rfl

theorem openers_closeParen (y : Yard) (t : Token) (kind : t.kind = .closeParen) :
    (closeParen y t.start).outcome.map (fun z => openers z.stack) =
      Opener.after (openers y.stack) t := by
  have kept := openers_flush y.stack
  simp only [Opener.after, kind, ← kept, closeParen]
  rcases flush_cases y.stack with front | ⟨start, rest, front⟩ | ⟨start, count, rest, front⟩ |
      ⟨start, count, rest, front⟩ <;> rw [front] <;> rfl

theorem openers_closeBracket (y : Yard) (t : Token) (kind : t.kind = .closeBracket) :
    (closeBracket y t.start).outcome.map (fun z => openers z.stack) =
      Opener.after (openers y.stack) t := by
  have kept := openers_flush y.stack
  simp only [Opener.after, kind, ← kept, closeBracket]
  rcases flush_cases y.stack with front | ⟨start, rest, front⟩ | ⟨start, count, rest, front⟩ |
      ⟨start, count, rest, front⟩ <;> rw [front] <;> rfl

/-- A token changes the openers of a yard as it changes what is open, or both are at fault. -/
theorem openers_accept (p : Precedence) (y : Yard) (t : Token) :
    (y.accept p t).outcome.map (fun z => openers z.stack) = Opener.after (openers y.stack) t := by
  unfold accept
  split
  case h_5 kind =>
    rw [openers_acceptOperator]
    simp only [Opener.after, kind]
  case h_6 kind =>
    simp only [Opener.after, kind, proceed, Except.map]
    split <;> rfl
  case h_7 kind => exact openers_closeParen y t kind
  case h_9 kind => exact openers_closeBracket y t kind
  all_goals
    next kind =>
      simp only [Opener.after, kind]
      rfl

theorem fault_finish (y : Yard) :
    y.finish.2 = (openers y.stack).head?.map fun innermost => .unclosedDelimiter innermost.start := by
  have kept := openers_flush y.stack
  simp only [finish, ← kept]
  rcases flush_cases y.stack with front | ⟨start, rest, front⟩ | ⟨start, count, rest, front⟩ |
      ⟨start, count, rest, front⟩ <;> rw [front] <;> rfl

/-- A run ends in the fault that the matcher finds among the openers of its yard. -/
theorem fault_run (p : Precedence) (y : Yard) (items : List (Except Fault Token)) :
    (y.run p items).2 = Opener.firstFault (openers y.stack) items := by
  induction items generalizing y with
  | nil => exact fault_finish y
  | cons item rest ih =>
    cases item with
    | error fault => rfl
    | ok t =>
      have step := openers_accept p y t
      simp only [run, Opener.firstFault, ← step]
      obtain ⟨program, outcome⟩ := y.accept p t
      cases outcome with
      | error fault => rfl
      | ok z => exact ih z

end Yard

/-- Ordering a stream of tokens ends in exactly the fault that the matcher finds, and ends without
one just when the stream has none and its delimiters are nested. -/
theorem Config.items_fault {φ σ : Type} [Source σ (Except Fault Token)] (config : Config φ)
    (tokens : σ) :
    (∃ program : Program, Source.items (config.instructions tokens) =
      program.stream (Opener.firstFault [] (Source.items tokens))) ∧
    (Opener.firstFault [] (Source.items tokens) = none ↔
      ∃ plain : List Token, Source.items tokens = plain.map .ok ∧ Nested plain) := by
  refine ⟨⟨(Yard.empty.run config.precedence (Source.items tokens)).1, ?_⟩,
    Opener.firstFault_eq_none_iff _⟩
  have whole := Stage.items_new config.precedence tokens
  rw [Yard.fault_run] at whole
  exact whole

end Reckoner
