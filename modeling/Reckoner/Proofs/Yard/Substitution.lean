import Reckoner.Proofs.Yard.Above

set_option autoImplicit false

namespace Reckoner

namespace Yard

variable {p : Precedence} {y next : Yard} {t : Token} {stack : List Entry}

/-- Tokens that do what an operand does wherever one may start: they send a program of their own,
and leave the stack as it was. -/
def Stands (p : Precedence) (tokens : List Token) (program : Program) : Prop :=
  ∀ (stack : List Entry) (last : Option TokenKind), last.any TokenKind.endsOperand = false →
    ∃ kind, kind.endsOperand = true ∧
      feed p ⟨stack, last⟩ tokens = ⟨program, .ok ⟨stack, some kind⟩⟩

theorem stands_operand {m : Mark} {i : Instruction} (marked : t.mark? = some m)
    (asks : m.operand? = some i) : Stands p [t] [i] := by
  intro stack last _
  refine ⟨m.kind, Mark.endsOperand_kind_of_operand? asks, ?_⟩
  have step : accept p ⟨stack, last⟩ t = proceed m.kind [i] stack := by
    rw [accept_of_mark marked]
    cases m <;> cases asks <;> rfl
  exact feed_cons_of_ok step []

theorem Course.exists_feed {items : List (Except Fault Token)} {tokens : List Token}
    {program : Program} {fault : Option Fault} (course : Course p y items tokens program fault)
    (clean : fault = none) :
    ∃ sent next, y.feed p tokens = ⟨sent, .ok next⟩ ∧ (flush next.stack).2 = [] ∧
      program = sent ++ (flush next.stack).1 := by
  induction course with
  | ends y => exact ⟨[], y, rfl, flush_of_finish clean, rfl⟩
  | stops y fault rest => cases clean
  | fails step rest => cases clean
  | @passes y between t first later fault rest others step course ih =>
    obtain ⟨sent, next, passed, ended, rfl⟩ := ih clean
    refine ⟨first ++ sent, next, ?_, ended, (List.append_assoc _ _ _).symm⟩
    rw [feed_cons_of_ok step, passed]

theorem exists_feed_of_run {tokens : List Token} {program : Program}
    (ran : y.run p (tokens.map .ok) = (program, none)) :
    ∃ sent next, y.feed p tokens = ⟨sent, .ok next⟩ ∧ (flush next.stack).2 = [] ∧
      program = sent ++ (flush next.stack).1 := by
  have course := course_run p y (tokens.map .ok)
  rw [ran] at course
  have whole := course.items_eq rfl
  rw [List.map_inj_right fun _ _ => Except.ok.inj] at whole
  rw [← whole] at course
  exact course.exists_feed rfl

/-- What a yard orders without a fault stands for an operand once it is in parentheses. -/
theorem stands_group {opening closing : Token} {inner : List Token} {program : Program}
    (opens : opening.mark? = some .openParen) (closes : closing.mark? = some .closeParen)
    (ran : empty.run p (inner.map .ok) = (program, none)) :
    Stands p (opening :: (inner ++ [closing])) program := by
  intro stack last before
  obtain ⟨sent, next, passed, ended, rfl⟩ := exists_feed_of_run ran
  have opened : accept p ⟨stack, last⟩ opening =
      ⟨[], .ok (empty.above (.group opening.start :: stack) (some .openParen))⟩ := by
    rw [accept_of_mark opens]
    simp only [acceptMark, afterOperand, before]
    rfl
  have closed : (next.above (.group opening.start :: stack) (some .openParen)).accept p closing =
      ⟨(flush next.stack).1, .ok ⟨stack, some .closeParen⟩⟩ := by
    have flushed : flush (next.stack ++ .group opening.start :: stack) =
        ((flush next.stack).1, (flush next.stack).2 ++ .group opening.start :: stack) :=
      Floored.flush (Or.inr ⟨opening.start, stack, rfl⟩)
    rw [accept_of_mark closes]
    simp only [acceptMark, closeParen, above, flushed, ended]
    rfl
  have floored : AtOperators p (fun z => Floored z.stack (.group opening.start :: stack)) .empty
      inner := fun _ _ _ _ _ _ _ _ _ => Or.inr ⟨opening.start, stack, rfl⟩
  have quiet : (some TokenKind.openParen).any TokenKind.endsOperand = false := rfl
  have inside := feed_above (fun _ => rfl) quiet floored passed
  refine ⟨.closeParen, rfl, ?_⟩
  rw [feed_cons_of_ok opened, feed_append_of_ok inside, feed_cons_of_ok closed]
  simp only [feed_nil, List.append_nil, List.nil_append]

/-- What a yard orders without a fault, and what takes in no operator but within delimiters, stands
for an operand as it is. -/
theorem stands_of_isOperand {tokens : List Token} {program : Program}
    (operand : Token.IsOperand tokens) (ran : empty.run p (tokens.map .ok) = (program, none)) :
    Stands p tokens program := by
  intro stack last before
  obtain ⟨sent, next, passed, ended, rfl⟩ := exists_feed_of_run ran
  have opener : AtOperators p (fun z => opened z.stack ≠ []) .empty tokens := by
    intro front back t symbol reached z split marked fed closed
    have openers := (counts_empty.feed fed).openers
    rw [closed] at openers
    exact operand.within front back t symbol split marked (List.map_eq_nil_iff.1 openers.symm)
  have floored : AtOperators p (fun z => Floored z.stack stack) .empty tokens :=
    fun front back t symbol reached z split marked fed =>
      Or.inl (opener front back t symbol reached z split marked fed)
  -- As no operator meets an empty stack, none is left there once all openers are closed.
  have bare : Bare next.stack := by
    have nothing : Bare empty.stack := fun entry last => by
      cases List.suffix_nil.1 last
    refine nothing.feed (fun front back t symbol reached z split marked fed closed => ?_) passed
    exact opener front back t symbol reached z split marked fed (by rw [closed]; rfl)
  have after : next.afterOperand = true :=
    (counts_empty.feed passed).afterOperand.trans operand.ends
  have same := feed_above (fun _ => rfl) before floored passed
  obtain ⟨rest, latest⟩ := next
  obtain rfl : rest = [] := bare.eq_nil ended
  cases latest with
  | none => cases after
  | some kind =>
    refine ⟨kind, after, same.trans ?_⟩
    exact congrArg (Step.mk · _) (List.append_nil sent).symm

/-- After an operand it makes no difference which kind of token it ended in. -/
theorem accept_of_endsOperand {kind other : TokenKind} {m : Mark} (ends : kind.endsOperand = true)
    (endsOther : other.endsOperand = true) (marked : t.mark? = some m) :
    accept p ⟨stack, some kind⟩ t = accept p ⟨stack, some other⟩ t := by
  rw [accept_of_mark marked, accept_of_mark marked]
  cases m with
  | operator symbol =>
    simp only [acceptMark, acceptOperator, afterOperand, Option.any_some, ends, endsOther]
  | openParen => simp only [acceptMark, afterOperand, Option.any_some, ends, endsOther]
  | closeParen =>
    have noOpener {kind : TokenKind} (ends : kind.endsOperand = true) :
        some kind ≠ some .openParen := by
      rintro ⟨⟩
      cases ends
    simp only [acceptMark, closeParen, noOpener ends, noOpener endsOther]
  | closeBracket =>
    have noOpener {kind : TokenKind} (ends : kind.endsOperand = true) :
        some kind ≠ some .openBracket := by
      rintro ⟨⟩
      cases ends
    simp only [acceptMark, closeBracket, noOpener ends, noOpener endsOther]
  | _ => rfl

theorem run_of_endsOperand {kind other : TokenKind} (ends : kind.endsOperand = true)
    (endsOther : other.endsOperand = true) (items : List (Except Fault Token)) :
    run p ⟨stack, some kind⟩ items = run p ⟨stack, some other⟩ items := by
  induction items with
  | nil => rfl
  | cons item rest ih =>
    cases item with
    | error fault => rfl
    | ok t =>
      cases marked : t.mark? with
      | none =>
        have kept (kind : TokenKind) := accept_of_blank marked p ⟨stack, some kind⟩
        rw [run_cons_of_ok (kept kind), run_cons_of_ok (kept other), ih]
      | some m => simp only [run, accept_of_endsOperand ends endsOther marked]

/-- What stands for an operand sends its program, and what comes after it is as after any operand.
-/
theorem Stands.run {tokens : List Token} {program : Program} (stands : Stands p tokens program)
    (before : y.afterOperand = false) (items : List (Except Fault Token)) :
    y.run p (tokens.map .ok ++ items) =
      (program ++ (Yard.run p ⟨y.stack, some .closeParen⟩ items).1,
        (Yard.run p ⟨y.stack, some .closeParen⟩ items).2) := by
  obtain ⟨kind, ends, passed⟩ := stands y.stack y.last before
  have closer : TokenKind.closeParen.endsOperand = true := rfl
  rw [run_of_feed passed, run_of_endsOperand ends closer]

theorem Stands.run_alone {tokens : List Token} {program : Program}
    (stands : Stands p tokens program) : empty.run p (tokens.map .ok) = (program, none) := by
  have whole := stands.run (y := empty) rfl []
  rw [List.append_nil] at whole
  exact whole.trans (Prod.ext (List.append_nil program) rfl)

end Yard

namespace Config

variable {φ : Type}

/-- What tokens are ordered into, with what comes after them. -/
def ordered (config : Config φ) (tokens : List Token) (back : List (Except Fault Token)) :
    List (Except Fault Instruction) :=
  Source.items (config.instructions (tokens.map .ok ++ back))

theorem ordered_of_run (config : Config φ) {tokens : List Token}
    {back : List (Except Fault Token)} {program : Program} {fault : Option Fault}
    (ran : Yard.empty.run config.precedence (tokens.map .ok ++ back) = (program, fault)) :
    config.ordered tokens back = program.stream fault := by
  have whole := Stage.items_new config.precedence (tokens.map Except.ok ++ back)
  rw [Source.items_list, ran] at whole
  exact whole

theorem ordered_of_clean (config : Config φ) {tokens : List Token} {program : Program}
    (ran : Yard.empty.run config.precedence (tokens.map .ok) = (program, none)) :
    config.ordered tokens [] = program.map .ok := by
  rw [← List.append_nil (tokens.map _)] at ran
  rw [config.ordered_of_run ran]
  exact List.append_nil _

/-- Tokens that raise no fault on their own are ordered by a run that ends without one. -/
theorem run_of_ordered {config : Config φ} {tokens : List Token} {program : Program}
    (clean : config.ordered tokens [] = program.map .ok) :
    Yard.empty.run config.precedence (tokens.map .ok) = (program, none) := by
  have streamed : program.stream none =
      (Yard.empty.run config.precedence (tokens.map .ok)).1.stream
        (Yard.empty.run config.precedence (tokens.map .ok)).2 := by
    rw [← config.ordered_of_run (congrArg _ (List.append_nil _)), clean]
    exact List.append_nil _
  obtain ⟨sent, ended⟩ := Program.stream_inj.1 streamed
  exact Prod.ext sent.symm ended.symm

theorem ordered_of_error (config : Config φ) {front : List Token} {sent : Program} {fault : Fault}
    (failed : Yard.empty.feed config.precedence front = ⟨sent, .error fault⟩)
    (middle : List Token) (back : List (Except Fault Token)) :
    config.ordered (front ++ middle) back = sent.stream (some fault) := by
  apply ordered_of_run
  rw [List.map_append, List.append_assoc]
  exact Yard.run_of_feed_error failed _

/-- What stands for an operand sends its program between what comes before and what comes after. -/
theorem ordered_of_stands (config : Config φ) {front middle : List Token} {y : Yard}
    {sent program later : Program} {fault : Option Fault} {back : List (Except Fault Token)}
    (reached : Yard.empty.feed config.precedence front = ⟨sent, .ok y⟩)
    (before : y.afterOperand = false) (stands : Yard.Stands config.precedence middle program)
    (after : Yard.run config.precedence ⟨y.stack, some .closeParen⟩ back = (later, fault)) :
    config.ordered (front ++ middle) back = (sent ++ program ++ later).stream fault := by
  apply ordered_of_run
  rw [List.map_append, List.append_assoc, Yard.run_of_feed reached, stands.run before, after,
    List.append_assoc]

/-- After `front` and before `back`, `other` may take the place of `middle`: its instructions come
where those of `middle` came and nothing else changes, be it a fault and its place. Where `front` is
at fault it makes no difference. -/
structure Exchanges (config : Config φ) (front : List Token) (back : List (Except Fault Token))
    (middle other : List Token) (program otherProgram : Program) : Prop where
  failed : ∀ sent fault, Yard.empty.feed config.precedence front = ⟨sent, .error fault⟩ →
    config.ordered (front ++ middle) back = sent.stream (some fault) ∧
    config.ordered (front ++ other) back = sent.stream (some fault)
  passed : ∀ sent y, Yard.empty.feed config.precedence front = ⟨sent, .ok y⟩ →
    ∃ later fault,
      config.ordered (front ++ middle) back = (sent ++ program ++ later).stream fault ∧
      config.ordered (front ++ other) back = (sent ++ otherProgram ++ later).stream fault

theorem exchanges_of_stands {config : Config φ} {front middle other : List Token}
    {program otherProgram : Program} (before : (Token.latest? front).any Mark.endsOperand = false)
    (stands : Yard.Stands config.precedence middle program)
    (otherStands : Yard.Stands config.precedence other otherProgram)
    (back : List (Except Fault Token)) :
    config.Exchanges front back middle other program otherProgram := by
  constructor
  · intro sent fault failed
    exact ⟨config.ordered_of_error failed middle back, config.ordered_of_error failed other back⟩
  · intro sent y reached
    have apart : y.afterOperand = false :=
      (Yard.counts_empty.feed reached).afterOperand.trans before
    exact ⟨_, _, config.ordered_of_stands reached apart stands rfl,
      config.ordered_of_stands reached apart otherStands rfl⟩

theorem Exchanges.ordered_eq {config : Config φ} {front middle other : List Token}
    {back : List (Except Fault Token)} {program : Program}
    (exchanges : config.Exchanges front back middle other program program) :
    config.ordered (front ++ middle) back = config.ordered (front ++ other) back := by
  cases reached : Yard.empty.feed config.precedence front with
  | mk sent outcome =>
    cases outcome with
    | error fault =>
      obtain ⟨left, right⟩ := exchanges.failed sent fault reached
      rw [left, right]
    | ok y =>
      obtain ⟨later, fault, left, right⟩ := exchanges.passed sent y reached
      rw [left, right]

/-- Tokens that are ordered without a fault may stand in parentheses for any number, string or word,
whatever comes before it, if it is not an operand, and whatever comes after it. So parentheses
change nothing around all of a stream that has no fault, nor around an operand. -/
theorem ordered_parenthesized (config : Config φ) {front inner : List Token}
    (back : List (Except Fault Token)) {opening closing : Token} {program : Program}
    (opens : opening.mark? = some .openParen) (closes : closing.mark? = some .closeParen)
    (before : (Token.latest? front).any Mark.endsOperand = false)
    (clean : config.ordered inner [] = program.map .ok) :
    let grouped := opening :: (inner ++ [closing])
    (∀ (x : Token) (m : Mark) (i : Instruction), x.mark? = some m → m.operand? = some i →
      config.Exchanges front back [x] grouped [i] program) ∧
    config.ordered grouped [] = program.map .ok ∧
    (Token.IsOperand inner →
      config.ordered (front ++ inner) back = config.ordered (front ++ grouped) back) := by
  intro grouped
  have ran := run_of_ordered clean
  have group : Yard.Stands config.precedence grouped program :=
    Yard.stands_group opens closes ran
  refine ⟨?_, config.ordered_of_clean group.run_alone, ?_⟩
  · intro x m i marked asks
    exact exchanges_of_stands before (Yard.stands_operand marked asks) group back
  · intro operand
    exact (exchanges_of_stands before (Yard.stands_of_isOperand operand ran) group back).ordered_eq

/-- In `f(a * c, d))` the `c` may be replaced by `(a, b)`: the comma in the group is an operator,
that of the call still counts, and the `)` that closes nothing is at fault as before. -/
theorem ordered_parenthesized_comma :
    let front : List Token :=
      [⟨.word, "f", 0⟩, ⟨.openParen, "(", 1⟩, ⟨.word, "a", 2⟩, ⟨.operator, "*", 4⟩]
    let inner : List Token := [⟨.word, "a", 7⟩, ⟨.operator, ",", 8⟩, ⟨.word, "b", 10⟩]
    let grouped : List Token := ⟨.openParen, "(", 6⟩ :: (inner ++ [⟨.closeParen, ")", 11⟩])
    let back : List (Except Fault Token) :=
      [.ok ⟨.operator, ",", 12⟩, .ok ⟨.word, "d", 14⟩, .ok ⟨.closeParen, ")", 15⟩,
       .ok ⟨.closeParen, ")", 16⟩]
    let config : Config Unit := standard
    ((Token.latest? front).any Mark.endsOperand = false ∧
      config.ordered inner [] = [.ok (.load "a"), .ok (.load "b"), .ok (.apply "," 2)]) ∧
    ∃ later fault,
      config.ordered (front ++ [⟨.word, "c", 6⟩]) back =
        Program.stream ([.load "f", .load "a"] ++ [.load "c"] ++ later) fault ∧
      config.ordered (front ++ grouped) back =
        Program.stream
          ([.load "f", .load "a"] ++ [.load "a", .load "b", .apply "," 2] ++ later) fault := by
  intro front inner grouped back config
  have before : (Token.latest? front).any Mark.endsOperand = false := by decide
  have clean : config.ordered inner [] =
      ([.load "a", .load "b", .apply "," 2] : Program).map .ok :=
    config.ordered_of_clean rfl
  refine ⟨⟨before, clean⟩, ?_⟩
  have opens : Token.mark? ⟨.openParen, "(", 6⟩ = some .openParen := rfl
  have closes : Token.mark? ⟨.closeParen, ")", 11⟩ = some .closeParen := rfl
  have replaced := (config.ordered_parenthesized back opens closes before clean).1
  exact (replaced _ (.word "c") (.load "c") rfl rfl).passed [.load "f", .load "a"] _ rfl

end Config

end Reckoner
