import Reckoner.Proofs.Token.Classification
import Reckoner.Proofs.Yard.Matching

set_option autoImplicit false

/-!
Two counts of the brackets that are open.

The lexer counts the `[` that no `]` has closed, and the yard keeps an entry for each array. A lexer
knows nothing of parentheses and operators, but as long as the yard accepts the tokens both counts
come to the same. So a `]` that the lexer lets through has its array in the yard, if not at the top.
Only at the end of the tokens the yard gives up an opener that the lexer goes on counting.
-/

namespace Reckoner

namespace Opener

def brackets (unclosed : List Opener) : Nat :=
  unclosed.countP fun o => o.closer = .closeBracket

variable {unclosed inner : List Opener} {tokens : List Token} {t : Token}

/-- A token that the matcher passes changes the open brackets as it changes the depth of a lexer. -/
theorem brackets_after (passed : after inner t = .ok unclosed) :
    brackets unclosed + (if t.kind = .closeBracket then 1 else 0) =
      brackets inner + if t.kind = .openBracket then 1 else 0 := by
  rcases cases_of_after passed with ⟨o, opens, rfl⟩ | ⟨o, rfl, kind⟩ | ⟨other, rfl⟩
  · rcases opens.kind_cases with ⟨kind, rfl⟩ | ⟨kind, rfl⟩ <;> simp [kind, brackets, closer]
  · cases o <;> simp [kind, brackets, closer]
  · cases kind : t.kind <;> simp_all [TokenKind.isDelimiter]

theorem brackets_afterAll (passed : afterAll inner tokens = .ok unclosed) :
    brackets unclosed + Token.count .closeBracket tokens =
      brackets inner + Token.count .openBracket tokens := by
  induction tokens generalizing inner with
  | nil =>
    obtain rfl := Except.ok.inj passed
    rfl
  | cons t rest ih =>
    obtain ⟨between, step, remaining⟩ := exists_of_afterAll_cons passed
    have here := brackets_after step
    have later := ih remaining
    rw [Token.count_cons, Token.count_cons]
    omega

/-- The depth of a lexer is how many brackets the matcher holds, as long as it passes the tokens. -/
theorem depth_eq_brackets {l : Lexicon} {source : String} {x : Lexer}
    (yields : (Lexer.new l source).Yields tokens x) (passed : afterAll [] tokens = .ok unclosed) :
    x.depth = brackets unclosed := by
  have counted : x.depth + Token.count .closeBracket tokens =
      0 + Token.count .openBracket tokens := yields.depth
  have matched : brackets unclosed + Token.count .closeBracket tokens =
      0 + Token.count .openBracket tokens := brackets_afterAll passed
  omega

/-- A lexer yields a `]` only where a bracket is open. -/
theorem exists_bracket_of_yields {l : Lexicon} {source : String} {x : Lexer}
    (yields : (Lexer.new l source).Yields (tokens ++ [t]) x) (kind : t.kind = .closeBracket)
    (passed : afterAll [] tokens = .ok unclosed) : ∃ start, bracket start ∈ unclosed := by
  have counted : x.depth + Token.count .closeBracket (tokens ++ [t]) =
      0 + Token.count .openBracket (tokens ++ [t]) := yields.depth
  have matched : brackets unclosed + Token.count .closeBracket tokens =
      0 + Token.count .openBracket tokens := brackets_afterAll passed
  simp only [Token.count, List.countP_append, List.countP_singleton, kind] at counted matched
  have some : 0 < brackets unclosed := by
    simp at counted
    omega
  obtain ⟨o, member, closes⟩ := List.countP_pos_iff.1 some
  cases o with
  | paren start => simp [closer] at closes
  | bracket start => exact ⟨start, member⟩

/-- So the matcher never refuses a `]` of a lexer for want of an opener. -/
theorem after_ne_mismatched {l : Lexicon} {source : String} {x : Lexer}
    (yields : (Lexer.new l source).Yields (tokens ++ [t]) x)
    (passed : afterAll [] tokens = .ok unclosed) (place : Nat) :
    after unclosed t ≠ .error (.mismatchedBracket place) := by
  intro refused
  rcases cases_of_after_error refused with ⟨_, other, _⟩ | ⟨_, _, _, _, other⟩ | ⟨kind, rfl, _⟩
  · cases other
  · cases other
  · obtain ⟨start, member⟩ := exists_bracket_of_yields yields kind passed
    cases member

end Opener

namespace Yard

variable {p : Precedence} {y next : Yard} {tokens : List Token}

def Entry.isArray : Entry → Bool
  | .array _ _ => true
  | _ => false

def arrays (stack : List Entry) : Nat :=
  stack.countP Entry.isArray

theorem brackets_openers (stack : List Entry) :
    Opener.brackets (openers stack) = arrays stack := by
  induction stack with
  | nil => rfl
  | cons entry rest ih =>
    cases entry with
    | operator symbol arity => exact ih
    | group start => exact ih
    | call start count => exact ih
    | array start count =>
      show Opener.brackets (.bracket start :: openers rest) = _
      rw [Opener.brackets, arrays, List.countP_cons_of_pos rfl, List.countP_cons_of_pos rfl]
      exact congrArg (· + 1) ih

/-- The innermost opener is gone in a yard that is unwound. -/
theorem openers_unwind (y : Yard) : openers y.unwind.stack = (openers y.stack).tail := by
  rw [unwind, ← openers_flush y.stack]
  rcases flush_cases y.stack with front | ⟨start, rest, front⟩ | ⟨start, count, rest, front⟩ |
      ⟨start, count, rest, front⟩ <;>
    · rw [front]
      rfl

theorem arrays_unwind (y : Yard) :
    arrays y.stack = arrays y.unwind.stack + Opener.brackets ((openers y.stack).take 1) := by
  have whole : Opener.brackets ((openers y.stack).take 1 ++ (openers y.stack).drop 1) =
      Opener.brackets (openers y.stack) := congrArg _ (List.take_append_drop 1 _)
  rw [Opener.brackets, List.countP_append, List.drop_one] at whole
  rw [← brackets_openers, ← brackets_openers, openers_unwind, ← whole, Nat.add_comm]
  rfl

/-- The openers of a yard are what the matcher holds after the tokens that it accepted. -/
theorem afterAll_of_feed (passed : (y.feed p tokens).outcome = .ok next) :
    Opener.afterAll (openers y.stack) tokens = .ok (openers next.stack) := by
  induction tokens generalizing y with
  | nil =>
    obtain rfl := Except.ok.inj passed
    rfl
  | cons t rest ih =>
    have whole : y.feed p (t :: rest) = ⟨(y.feed p (t :: rest)).program, .ok next⟩ :=
      congrArg (Step.mk _) passed
    obtain ⟨sent, between, later, step, remaining, _⟩ := exists_of_feed_cons whole
    have matched := openers_accept p y t
    rw [step] at matched
    rw [Opener.afterAll_cons_of_ok matched.symm]
    exact ih (congrArg Step.outcome remaining)

theorem outcome_feed_concat (front : (y.feed p tokens).outcome = .ok next) (t : Token) :
    (y.feed p (tokens ++ [t])).outcome = (next.accept p t).outcome := by
  have whole : y.feed p tokens = ⟨(y.feed p tokens).program, .ok next⟩ :=
    congrArg (Step.mk _) front
  rw [feed_append_of_ok whole]
  cases step : next.accept p t with
  | mk sent outcome => cases outcome <;> simp only [feed, step]

end Yard

namespace Stage

variable {σ : Type}

/-- Whether a stage pulls next, since nothing is ready and nothing has ended it. -/
structure Idle (s : Stage σ) : Prop where
  nothing : s.deliver? = none
  running : s.done = false

theorem Idle.fault {s : Stage σ} (idle : s.Idle) : s.fault = none := by
  have nothing := idle.nothing
  unfold deliver? at nothing
  split at nothing
  · cases nothing
  · exact Option.map_eq_none_iff.1 nothing

/-- What is handed out leaves the tokens and the yard alone. -/
theorem exists_eq_of_deliver? {s rest : Stage σ} {item : Except Fault Instruction}
    (ready : s.deliver? = some (item, rest)) :
    ∃ queue fault, rest = { s with queue := queue, fault := fault } := by
  unfold deliver? at ready
  split at ready
  · next i others _ =>
    obtain ⟨_, rfl⟩ := Prod.mk.inj (Option.some.inj ready)
    exact ⟨others, s.fault, rfl⟩
  · obtain ⟨_, _, same⟩ := Option.map_eq_some_iff.1 ready
    obtain ⟨_, rfl⟩ := Prod.mk.inj same
    exact ⟨s.queue, none, rfl⟩

variable [Source σ (Except Fault Token)] {first s : Stage σ} {tokens : List Token}

/-- The points of a run before the end of the tokens is pulled: what a stage becomes, and the tokens
that were pulled so far. -/
inductive Reaches (first : Stage σ) : List Token → Stage σ → Prop
  | start : Reaches first [] first
  | deliver {tokens : List Token} {s rest : Stage σ} {item : Except Fault Instruction}
      (before : Reaches first tokens s) (ready : s.deliver? = some (item, rest)) :
      Reaches first tokens rest
  | pull {tokens : List Token} {s : Stage σ} {t : Token} {rest : σ}
      (before : Reaches first tokens s) (idle : s.Idle)
      (pulled : Source.pull s.tokens = (some (.ok t), rest)) :
      Reaches first (tokens ++ [t]) s.feed
  /-- A fault comes in place of a token. -/
  | fail {tokens : List Token} {s : Stage σ} {fault : Fault} {rest : σ}
      (before : Reaches first tokens s) (idle : s.Idle)
      (pulled : Source.pull s.tokens = (some (.error fault), rest)) : Reaches first tokens s.feed

/-- The points of a run from the pull on that finds the tokens at their end. -/
inductive Finishes (first : Stage σ) : List Token → Stage σ → Prop
  | finish {tokens : List Token} {s : Stage σ} {rest : σ} (before : Reaches first tokens s)
      (idle : s.Idle) (pulled : Source.pull s.tokens = (none, rest)) : Finishes first tokens s.feed
  | deliver {tokens : List Token} {s rest : Stage σ} {item : Except Fault Instruction}
      (before : Finishes first tokens s) (ready : s.deliver? = some (item, rest)) :
      Finishes first tokens rest

theorem Finishes.done (finished : Finishes first tokens s) : s.done = true := by
  induction finished with
  | finish _ _ pulled => rw [feed_eq pulled, take]
  | deliver _ ready ih =>
    obtain ⟨_, _, rfl⟩ := exists_eq_of_deliver? ready
    exact ih

theorem Finishes.next (finished : Finishes first tokens s) : Finishes first tokens s.next.2 := by
  rw [Stage.next]
  split
  · next item rest ready => exact finished.deliver ready
  · rw [if_pos finished.done]
    exact finished

/-- What a call leaves is a point of the run. -/
theorem Reaches.next (reached : Reaches first tokens s) :
    ∃ more, Reaches first (tokens ++ more) s.next.2 ∨
      Finishes first (tokens ++ more) s.next.2 := by
  fun_induction Stage.next s generalizing tokens with
  | case1 s item rest ready =>
    refine ⟨[], .inl ?_⟩
    rw [List.append_nil]
    exact reached.deliver ready
  | case2 s nothing done =>
    refine ⟨[], .inl ?_⟩
    rw [List.append_nil]
    exact reached
  | case3 s nothing running ih =>
    have idle : s.Idle := ⟨nothing, by simpa using running⟩
    cases pulled : Source.pull s.tokens with
    | mk answer rest =>
      cases answer with
      | none =>
        refine ⟨[], .inr ?_⟩
        rw [List.append_nil]
        exact (Finishes.finish reached idle pulled).next
      | some item =>
        cases item with
        | error fault => exact ih (reached.fail idle pulled)
        | ok t =>
          obtain ⟨more, later⟩ := ih (reached.pull idle pulled)
          refine ⟨t :: more, ?_⟩
          rwa [List.append_assoc] at later

theorem feed_of_ok {t : Token} {rest : σ} {sent : Program} {next : Yard}
    (pulled : Source.pull s.tokens = (some (.ok t), rest))
    (step : s.yard.accept s.precedence t = ⟨sent, .ok next⟩) :
    s.feed = { s with tokens := rest, yard := next, queue := sent } :=
  (feed_eq pulled).trans (take_of_ok step rest)

theorem feed_of_error {t : Token} {rest : σ} {sent : Program} {fault : Fault}
    (pulled : Source.pull s.tokens = (some (.ok t), rest))
    (step : s.yard.accept s.precedence t = ⟨sent, .error fault⟩) :
    s.feed = ⟨s.precedence, rest, s.yard.unwind, sent, some fault, true⟩ :=
  (feed_eq pulled).trans (take_of_error step rest)

end Stage

theorem Lexer.depth_of_next_error {x y : Lexer} {fault : Fault}
    (failed : x.next = (some (.error fault), y)) : y.depth = x.depth := by
  obtain ⟨_, _, _, rfl, _⟩ := exists_of_next_error failed
  rfl

theorem Lexer.depth_of_next_none {x y : Lexer} (ended : x.next = (none, y)) :
    y.depth = x.depth := by
  unfold next at ended
  split at ended
  · obtain ⟨_, rfl⟩ := Prod.mk.inj ended
    rfl
  · split at ended
    · obtain ⟨_, rfl⟩ := Prod.mk.inj ended
      rfl
    · cases ended

namespace Stage

variable {φ : Type} {config : Config φ} {source : String} {tokens : List Token} {s : Stage Lexer}

/-- What a point of a run over the tokens of a source has to do with the tokens pulled so far: its
lexer has yielded them, and its yard is what they make of an empty one, if that accepts them all. -/
structure Agrees (config : Config φ) (source : String) (tokens : List Token) (s : Stage Lexer) :
    Prop where
  precedence : s.precedence = config.precedence
  lexed : ∃ x, (config.tokens source).Yields tokens x ∧ s.tokens.depth = x.depth ∧
    (s.done = false → s.tokens = x)
  accepted : ∀ y, (Yard.empty.feed config.precedence tokens).outcome = .ok y → s.yard = y
  running : s.done = false → (Yard.empty.feed config.precedence tokens).outcome = .ok s.yard

theorem Agrees.yields (agrees : Agrees config source tokens s) (running : s.done = false) :
    (config.tokens source).Yields tokens s.tokens := by
  obtain ⟨x, yields, _, same⟩ := agrees.lexed
  rwa [same running]

theorem Agrees.pull {t : Token} {rest : Lexer} (agrees : Agrees config source tokens s)
    (idle : s.Idle) (pulled : Source.pull s.tokens = (some (.ok t), rest)) :
    Agrees config source (tokens ++ [t]) s.feed := by
  have yields : (config.tokens source).Yields (tokens ++ [t]) rest :=
    (agrees.yields idle.running).append (.token pulled (.nothing rest))
  have fed := Yard.outcome_feed_concat (agrees.running idle.running) t
  rw [← agrees.precedence] at fed
  cases step : s.yard.accept s.precedence t with
  | mk sent outcome =>
    rw [step] at fed
    cases outcome with
    | ok next =>
      rw [feed_of_ok pulled step]
      refine ⟨agrees.precedence, ⟨rest, yields, rfl, fun _ => rfl⟩, fun y accepted => ?_, fun _ => ?_⟩
      · rw [← agrees.precedence, fed] at accepted
        exact Except.ok.inj accepted
      · rw [← agrees.precedence, fed]
    | error fault =>
      rw [feed_of_error pulled step]
      refine ⟨agrees.precedence, ⟨rest, yields, rfl, nofun⟩, fun y accepted => ?_, nofun⟩
      rw [← agrees.precedence, fed] at accepted
      cases accepted

/-- Every point of a run agrees with the tokens pulled so far. -/
theorem Reaches.agrees
    (reached : Reaches (config.instructions (config.tokens source)) tokens s) :
    Agrees config source tokens s := by
  induction reached with
  | start =>
    exact ⟨rfl, ⟨_, .nothing _, rfl, fun _ => rfl⟩, fun y same => Except.ok.inj same, fun _ => rfl⟩
  | deliver _ ready ih =>
    obtain ⟨_, _, rfl⟩ := exists_eq_of_deliver? ready
    exact ⟨ih.precedence, ih.lexed, ih.accepted, ih.running⟩
  | pull _ idle pulled ih => exact ih.pull idle pulled
  | @fail tokens s fault rest _ idle pulled ih =>
    obtain ⟨x, yields, same, _⟩ := ih.lexed
    have depth : rest.depth = s.tokens.depth := Lexer.depth_of_next_error pulled
    rw [feed_eq pulled]
    exact ⟨ih.precedence, ⟨x, yields, depth.trans same, nofun⟩, ih.accepted, nofun⟩

/-- After the end all tokens are accepted, and the yard that they make is unwound. -/
theorem Finishes.unwound
    (finished : Finishes (config.instructions (config.tokens source)) tokens s) :
    ∃ y x, (Yard.empty.feed config.precedence tokens).outcome = .ok y ∧ s.yard = y.unwind ∧
      (config.tokens source).Yields tokens x ∧ s.tokens.depth = x.depth := by
  induction finished with
  | @finish s rest before idle pulled =>
    have agrees := before.agrees
    have depth : rest.depth = s.tokens.depth := Lexer.depth_of_next_none pulled
    rw [feed_eq pulled]
    exact ⟨s.yard, s.tokens, agrees.running idle.running, rfl, agrees.yields idle.running, depth⟩
  | deliver _ ready ih =>
    obtain ⟨_, _, rfl⟩ := exists_eq_of_deliver? ready
    exact ih

/-- A `]` that is pulled closes the array at the top of the yard, or it is at fault that the innermost
opener, which lies within an array, is a `(`. -/
theorem Reaches.closeBracket {t : Token} {rest : Lexer}
    (reached : Reaches (config.instructions (config.tokens source)) tokens s) (idle : s.Idle)
    (pulled : Source.pull s.tokens = (some (.ok t), rest)) (kind : t.kind = .closeBracket) :
    (∃ start outer count, Yard.openers s.yard.stack = .bracket start :: outer ∧
        Yard.openers s.feed.yard.stack = outer ∧ s.feed.fault = none ∧
        s.feed.queue.getLast? = some (.collect count)) ∨
      ∃ start outer array, Yard.openers s.yard.stack = .paren start :: outer ∧
        .bracket array ∈ outer ∧ s.feed.fault = some (.unclosedDelimiter start) := by
  have agrees := reached.agrees
  have yields : (config.tokens source).Yields (tokens ++ [t]) rest :=
    (agrees.yields idle.running).append (.token pulled (.nothing rest))
  have passed : Opener.afterAll [] tokens = .ok (Yard.openers s.yard.stack) :=
    Yard.afterAll_of_feed (agrees.running idle.running)
  obtain ⟨array, within⟩ := Opener.exists_bracket_of_yields yields kind passed
  have marked : t.mark? = some .closeBracket := by simp [Token.mark?, kind]
  have move := Yard.move_accept (p := s.precedence) (y := s.yard) marked
  have matched := Yard.openers_accept s.precedence s.yard t
  cases step : s.yard.accept s.precedence t with
  | mk sent outcome =>
    rw [step] at move matched
    simp only [Opener.after, kind] at matched
    cases outerMost : Yard.openers s.yard.stack with
    | nil =>
      rw [outerMost] at within
      cases within
    | cons o outer =>
      rw [outerMost] at matched within
      cases o with
      | bracket start =>
        cases outcome with
        | error fault => cases matched
        | ok next =>
          rw [feed_of_ok pulled step]
          refine .inl ⟨start, outer, ?_⟩
          cases move with
          | operand asks => cases asks
          | closeArray front =>
            exact ⟨_, rfl, Except.ok.inj matched, idle.fault, List.getLast?_concat⟩
      | paren start =>
        cases outcome with
        | ok next => cases matched
        | error fault =>
          rw [feed_of_error pulled step]
          refine .inr ⟨start, outer, array, rfl, ?_, congrArg some (Except.error.inj matched)⟩
          simpa using within

end Stage

theorem Lexer.items_of_next_error {x y : Lexer} {fault : Fault}
    (failed : x.next = (some (.error fault), y)) : Source.items x = [.error fault] := by
  obtain ⟨_, _, _, rfl, _⟩ := exists_of_next_error failed
  have spent : Source.pull { x with failed := true } = (none, { x with failed := true }) := rfl
  rw [Source.items_of_pull_some failed, Source.items_of_pull_none spent]

/-- Only the lexer says that a `]` is without its `[`. -/
theorem Config.items_of_compile_mismatched {φ : Type} {config : Config φ} {source : String}
    {place : Nat} (failed : config.compile source = .error (.mismatchedBracket place)) :
    ∃ tokens : List Token, Source.items (config.tokens source) =
      tokens.map .ok ++ [.error (.mismatchedBracket place)] := by
  obtain ⟨front, unclosed, x, yields, passed, stop⟩ := exists_stop failed
  rcases stop with ⟨_, o, outer, _, same⟩ | ⟨_, y, here⟩ | ⟨t, read, refused⟩
  · cases same
  · exact ⟨_, by rw [yields.items, Lexer.items_of_next_error here]⟩
  · rw [read] at yields
    exact absurd refused (Opener.after_ne_mismatched yields passed place)

theorem Config.depth_eq_arrays_of_yields {φ : Type} {config : Config φ} {source : String}
    {tokens : List Token} {x : Lexer} {y : Yard} (yields : (config.tokens source).Yields tokens x)
    (accepted : (Yard.empty.feed config.precedence tokens).outcome = .ok y) :
    x.depth = Yard.arrays y.stack := by
  have passed : Opener.afterAll [] tokens = .ok (Yard.openers y.stack) :=
    Yard.afterAll_of_feed accepted
  rw [Opener.depth_eq_brackets yields passed, Yard.brackets_openers]

/-- Before the end of a source is pulled, and as long as the yard accepts the tokens, its stack has an
array for each `[` that the lexer counts as open, whatever the symbols and the classes are. At the end
the yard gives up its innermost opener, and if that is a `[` the lexer counts one more. The fault of a
`]` without its `[` is always the lexer's own, and a `]` that the lexer yields closes an array or finds
a `(` that was opened within one. -/
theorem Config.depth_eq_arrays {φ : Type} (config : Config φ) (source : String) :
    let first := config.instructions (config.tokens source)
    (∀ tokens s, Stage.Reaches first tokens s →
      (∃ more, Stage.Reaches first (tokens ++ more) s.next.2 ∨
        Stage.Finishes first (tokens ++ more) s.next.2) ∧
      ∀ y, (Yard.empty.feed config.precedence tokens).outcome = .ok y →
        s.yard = y ∧ s.tokens.depth = Yard.arrays s.yard.stack) ∧
    (∀ tokens s, Stage.Finishes first tokens s →
      Stage.Finishes first tokens s.next.2 ∧
      ∃ y, (Yard.empty.feed config.precedence tokens).outcome = .ok y ∧ s.yard = y.unwind ∧
        Yard.openers s.yard.stack = (Yard.openers y.stack).tail ∧
        s.tokens.depth =
          Yard.arrays s.yard.stack + Opener.brackets ((Yard.openers y.stack).take 1)) ∧
    (∀ place, config.compile source = .error (.mismatchedBracket place) →
      ∃ tokens : List Token, Source.items (config.tokens source) =
        tokens.map .ok ++ [.error (.mismatchedBracket place)]) ∧
    ∀ tokens s t rest, Stage.Reaches first tokens s → s.Idle →
      Source.pull s.tokens = (some (.ok t), rest) → t.kind = .closeBracket →
      (∃ start outer count, Yard.openers s.yard.stack = .bracket start :: outer ∧
          Yard.openers s.feed.yard.stack = outer ∧ s.feed.fault = none ∧
          s.feed.queue.getLast? = some (.collect count)) ∨
        ∃ start outer array, Yard.openers s.yard.stack = .paren start :: outer ∧
          .bracket array ∈ outer ∧ s.feed.fault = some (.unclosedDelimiter start) := by
  intro first
  refine ⟨fun tokens s reached => ⟨reached.next, fun y accepted => ?_⟩,
    fun tokens s finished => ⟨finished.next, ?_⟩, fun place => items_of_compile_mismatched,
    fun tokens s t rest reached => reached.closeBracket⟩
  · have agrees := reached.agrees
    obtain rfl := agrees.accepted y accepted
    obtain ⟨x, yields, same, _⟩ := agrees.lexed
    exact ⟨rfl, same.trans (depth_eq_arrays_of_yields yields accepted)⟩
  · obtain ⟨y, x, accepted, unwound, yields, same⟩ := finished.unwound
    refine ⟨y, accepted, unwound, ?_, ?_⟩
    · rw [unwound, Yard.openers_unwind]
    · rw [unwound, ← Yard.arrays_unwind, same, depth_eq_arrays_of_yields yields accepted]

/-- At the end of `[1` all tokens are accepted and the lexer counts the `[` still, but the yard has
given up its array. -/
theorem Config.depth_ne_arrays_unclosed :
    let config : Config Unit := .standard
    let tokens : List Token := [⟨.openBracket, "[", 0⟩, ⟨.number, "1", 1⟩]
    ∃ s y, Stage.Finishes (config.instructions (config.tokens "[1")) tokens s ∧
      (Yard.empty.feed config.precedence tokens).outcome = .ok y ∧
      s.tokens.depth = 1 ∧ Yard.arrays s.yard.stack = 0 := by
  intro config tokens
  let left (rest : List Char) (position depth : Nat) : Lexer :=
    ⟨⟨Standard.symbolsInOrder, .standard⟩, rest, position, depth, false⟩
  let stage (x : Lexer) (stack : List Yard.Entry) (last : Option TokenKind) (queue : Program) :
      Stage Lexer := ⟨config.precedence, x, ⟨stack, last⟩, queue, none, false⟩
  have source : config.tokens "[1" = left ['[', '1'] 0 0 := by
    rw [Config.tokens, Standard.lexicon_eq rfl]
    rfl
  rw [source]
  have opened : Stage.Reaches (config.instructions (left ['[', '1'] 0 0))
      [⟨.openBracket, "[", 0⟩] (stage (left ['1'] 1 1) [.array 0 1] (some .openBracket) []) :=
    .pull .start ⟨rfl, rfl⟩ rfl
  have loaded : Stage.Reaches (config.instructions (left ['[', '1'] 0 0)) tokens
      (stage (left [] 2 1) [.array 0 1] (some .number) [.push (.ofNumeral "1")]) :=
    .pull opened ⟨rfl, rfl⟩ rfl
  have idle : Stage.Reaches (config.instructions (left ['[', '1'] 0 0)) tokens
      (stage (left [] 2 1) [.array 0 1] (some .number) []) := loaded.deliver rfl
  exact ⟨_, ⟨[.array 0 1], some .number⟩, .finish idle ⟨rfl, rfl⟩ rfl, rfl, rfl, rfl⟩

end Reckoner
