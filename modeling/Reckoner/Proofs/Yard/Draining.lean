import Reckoner.Proofs.Phrase.Placement
import Reckoner.Proofs.Token.Demand
import Reckoner.Proofs.Yard.Balance
import Reckoner.Proofs.Yard.Ordering

set_option autoImplicit false

namespace Reckoner

namespace Yard

/-- Whether a token is an operator with an operand before it, and no comma that separates. -/
def TakesTwo (y : Yard) (t : Token) : Prop :=
  t.kind = .operator ∧ ¬ (t.raw = "," ∧ separates y.stack = true) ∧ y.afterOperand = true

instance (y : Yard) (t : Token) : Decidable (y.TakesTwo t) :=
  inferInstanceAs (Decidable (_ ∧ _))

/-- The operators on top that go before `symbol`, as instructions, and the stack below them. -/
def drain (p : Precedence) (symbol : String) : List Entry → Program × List Entry
  | .operator waiting arity :: rest =>
    if p.goesFirst waiting symbol then
      let (program, stack) := drain p symbol rest
      (.apply waiting arity :: program, stack)
    else ([], .operator waiting arity :: rest)
  | stack => ([], stack)

/-- Takes one token in as `accept` does, but a binary operator drains. -/
def acceptDraining (p : Precedence) (y : Yard) (t : Token) : Step :=
  if y.TakesTwo t then
    proceed .operator (drain p t.raw y.stack).1 (.operator t.raw 2 :: (drain p t.raw y.stack).2)
  else y.accept p t

def runDraining (p : Precedence) (y : Yard) : List (Except Fault Token) → Program × Option Fault
  | [] => y.finish
  | .error fault :: _ => ([], some fault)
  | .ok token :: rest =>
    match y.acceptDraining p token with
    | ⟨program, .error fault⟩ => (program, some fault)
    | ⟨program, .ok y⟩ =>
      let (later, fault) := y.runDraining p rest
      (program ++ later, fault)

/-- How many operators a token drains; only a binary operator drains any. -/
def drained (p : Precedence) (y : Yard) (t : Token) : Nat :=
  if y.TakesTwo t then (drain p t.raw y.stack).1.length else 0

def drains (p : Precedence) (y : Yard) : List Token → List Nat
  | [] => []
  | t :: rest =>
    y.drained p t ::
      match (y.acceptDraining p t).outcome with
      | .ok next => next.drains p rest
      | .error _ => []

variable {p : Precedence} {y : Yard} {t : Token}

/-- A drain stops at once, or sends the operator on top and goes on below it. -/
theorem drain_cases (p : Precedence) (symbol : String) (stack : List Entry) :
    drain p symbol stack = ([], stack) ∨
      ∃ waiting arity rest, stack = .operator waiting arity :: rest ∧
        p.goesFirst waiting symbol = true ∧
        drain p symbol stack =
          (.apply waiting arity :: (drain p symbol rest).1, (drain p symbol rest).2) := by
  cases stack with
  | nil => exact Or.inl rfl
  | cons entry rest =>
    cases entry with
    | operator waiting arity =>
      simp only [drain]
      cases first : p.goesFirst waiting symbol with
      | true => exact Or.inr ⟨waiting, arity, rest, rfl, first, rfl⟩
      | false => exact Or.inl rfl
    | group start => exact Or.inl rfl
    | call start count => exact Or.inl rfl
    | array start count => exact Or.inl rfl

/-- An operator that goes first is sent by the one test, and what is below it stays. -/
theorem placeBinary_of_goesFirst {symbol waiting : String} {arity : Nat} {rest : List Entry}
    (first : p.goesFirst waiting symbol = true) :
    placeBinary p symbol (.operator waiting arity :: rest) =
      proceed .operator [.apply waiting arity] (.operator symbol 2 :: rest) := by
  simp only [placeBinary, first, if_true]

theorem placeBinary_of_drain_stops {symbol : String} {stack : List Entry}
    (stops : drain p symbol stack = ([], stack)) :
    placeBinary p symbol stack = proceed .operator [] (.operator symbol 2 :: stack) := by
  unfold placeBinary
  split
  · next waiting arity rest =>
    split
    · next first =>
      rw [drain, if_pos first] at stops
      cases congrArg Prod.fst stops
    · rfl
  · rfl

/-- One test does what a drain of at most one operator does. -/
theorem placeBinary_of_drain_le_one {symbol : String} {stack : List Entry}
    (single : (drain p symbol stack).1.length ≤ 1) :
    placeBinary p symbol stack =
      proceed .operator (drain p symbol stack).1
        (.operator symbol 2 :: (drain p symbol stack).2) := by
  rcases drain_cases p symbol stack with stops | ⟨waiting, arity, rest, rfl, first, sent⟩
  · rw [placeBinary_of_drain_stops stops, stops]
  · rw [sent, List.length_cons] at single
    rcases drain_cases p symbol rest with stops | ⟨second, number, below, _, _, more⟩
    · rw [placeBinary_of_goesFirst first, sent, stops]
    · rw [more, List.length_cons] at single
      omega

/-- A drain of two operators or more sends the same first one as the one test, and then another. -/
theorem exists_of_two_le_drain {symbol : String} {stack : List Entry}
    (several : 2 ≤ (drain p symbol stack).1.length) :
    ∃ first second later rest, (drain p symbol stack).1 = first :: second :: later ∧
      (∃ waiting arity, second = .apply waiting arity) ∧
      placeBinary p symbol stack = proceed .operator [first] (.operator symbol 2 :: rest) := by
  rcases drain_cases p symbol stack with stops | ⟨waiting, arity, rest, rfl, first, sent⟩
  · rw [stops] at several
    cases several
  · rcases drain_cases p symbol rest with stops | ⟨second, number, below, _, _, more⟩
    · rw [sent, stops] at several
      exact absurd several (Nat.not_succ_le_self 1)
    · refine ⟨.apply waiting arity, .apply second number, (drain p symbol below).1, rest, ?_,
        ⟨second, number, rfl⟩, placeBinary_of_goesFirst first⟩
      rw [sent, more]

theorem accept_of_takesTwo (binary : y.TakesTwo t) :
    y.accept p t = placeBinary p t.raw y.stack := by
  obtain ⟨kind, plain, after⟩ := binary
  simp only [accept, kind, acceptOperator, if_neg plain, after, if_true]

/-- A token that drains at most one operator does the same in both yards. -/
theorem acceptDraining_of_drained_le_one (single : y.drained p t ≤ 1) :
    y.acceptDraining p t = y.accept p t := by
  unfold acceptDraining
  split
  · next binary =>
    rw [drained, if_pos binary] at single
    rw [accept_of_takesTwo binary, placeBinary_of_drain_le_one single]
  · rfl

theorem runDraining_cons_of_ok {next : Yard} {program : Program}
    (step : y.acceptDraining p t = ⟨program, .ok next⟩) (rest : List (Except Fault Token)) :
    y.runDraining p (.ok t :: rest) =
      (program ++ (next.runDraining p rest).1, (next.runDraining p rest).2) := by
  simp only [runDraining, step]

theorem runDraining_cons_of_error {program : Program} {fault : Fault}
    (step : y.acceptDraining p t = ⟨program, .error fault⟩) (rest : List (Except Fault Token)) :
    y.runDraining p (.ok t :: rest) = (program, some fault) := by
  simp only [runDraining, step]

/-- Without a drain of two operators the yards do the same, whatever the tokens. -/
theorem runDraining_eq_run {tokens : List Token} (single : ∀ n ∈ y.drains p tokens, n ≤ 1) :
    y.runDraining p (tokens.map .ok) = y.run p (tokens.map .ok) := by
  induction tokens generalizing y with
  | nil => rfl
  | cons t rest ih =>
    simp only [drains, List.forall_mem_cons] at single
    have same := acceptDraining_of_drained_le_one single.1
    rw [same] at single
    rw [List.map_cons]
    cases step : y.accept p t with
    | mk program outcome =>
      rw [step] at same single
      cases outcome with
      | error fault => rw [runDraining_cons_of_error same, run_cons_of_error step]
      | ok next => rw [runDraining_cons_of_ok same, run_cons_of_ok step, ih single.2]

theorem openers_drain (p : Precedence) (symbol : String) (stack : List Entry) :
    openers (drain p symbol stack).2 = openers stack := by
  induction stack with
  | nil => rfl
  | cons entry rest ih =>
    rcases drain_cases p symbol (entry :: rest) with stops | ⟨waiting, arity, below, same, _, sent⟩
    · rw [stops]
    · obtain ⟨rfl, rfl⟩ := List.cons.inj same
      rw [sent]
      exact ih

theorem openers_acceptDraining (p : Precedence) (y : Yard) (t : Token) :
    (y.acceptDraining p t).outcome.map (fun z => openers z.stack) =
      Opener.after (openers y.stack) t := by
  unfold acceptDraining
  split
  · next binary =>
    have kept := openers_drain p t.raw y.stack
    simp only [Opener.after, binary.1, proceed, Except.map, ← kept]
    rfl
  · exact openers_accept p y t

theorem fault_runDraining (p : Precedence) (y : Yard) (items : List (Except Fault Token)) :
    (y.runDraining p items).2 = Opener.firstFault (openers y.stack) items := by
  induction items generalizing y with
  | nil => exact fault_finish y
  | cons item rest ih =>
    cases item with
    | error fault => rfl
    | ok t =>
      have step := openers_acceptDraining p y t
      simp only [runDraining, Opener.firstFault, ← step]
      obtain ⟨program, outcome⟩ := y.acceptDraining p t
      cases outcome with
      | error fault => rfl
      | ok z => exact ih z

variable {outer : List Enclosure} {role : Role} {m : Mark}

/-- Where no operand has just ended, what ends a part comes right after the opener of a call or an
array. -/
theorem Balanced.opener_of_admits {next : Role} (balanced : y.Balanced outer (some role))
    (opens : role.endsOperand = false) (ends : next.endsPart = true)
    (admitted : role.admits next = true) :
    (∃ start rest, y = ⟨.call start 1 :: rest, some .openParen⟩) ∨
      ∃ start rest, y = ⟨.array start 1 :: rest, some .openBracket⟩ := by
  have admits : ∀ before ∈ some role, before.admits next = true := by
    rintro before ⟨rfl⟩
    exact admitted
  rcases balanced.follows.of_admits ends admits with after | ⟨none, _⟩ | ⟨_, opener⟩
  · rw [balanced.follows.afterOperand, Option.any_some, opens] at after
    cases after
  · cases none
  · exact opener

/-- Where no operand has just ended, a comma that separates is out of place. -/
theorem Role.ofMark_operator_of_admits {symbol : String} (opens : role.endsOperand = false)
    (admitted : role.admits (Role.ofMark outer (some role) (.operator symbol)) = true) :
    Role.ofMark outer (some role) (.operator symbol) = .operator := by
  rw [Role.ofMark] at admitted ⊢
  split
  · next counted =>
    rw [if_pos counted] at admitted
    cases role with
    | operand => cases opens
    | closer => cases opens
    | operator => cases admitted
    | separator => cases admitted
    | opener e => cases e <;> cases admitted
  · rfl

/-- Where no operand has just ended, a token sends something other than an operator, or it sends
nothing and no operand ends in it. -/
theorem Balanced.sends_no_operator (balanced : y.Balanced outer (some role))
    (opens : role.endsOperand = false) (marked : t.mark? = some m)
    (admitted : role.admits (Role.ofMark outer (some role) m) = true) :
    (∃ i later, (y.accept p t).program = i :: later ∧ i.isApplication = false) ∨
      (y.accept p t).program = [] ∧ ∀ next, (y.accept p t).outcome = .ok next →
        (Role.ofMark outer (some role) m).endsOperand = false := by
  rw [accept_of_mark marked]
  cases m with
  | number raw => exact Or.inl ⟨_, [], rfl, rfl⟩
  | string raw => exact Or.inl ⟨_, [], rfl, rfl⟩
  | word raw => exact Or.inl ⟨_, [], rfl, rfl⟩
  | operator symbol =>
    have operator := Role.ofMark_operator_of_admits opens admitted
    have before : y.afterOperand = false := by
      rw [balanced.follows.afterOperand, Option.any_some, opens]
    have plain : ¬ (symbol = "," ∧ separates y.stack = true) := by
      rw [separates_eq, balanced.enclosed]
      intro counted
      rw [Role.ofMark, if_pos counted] at operator
      cases operator
    refine Or.inr ⟨?_, fun next _ => by rw [operator]; rfl⟩
    simp [acceptMark, Yard.acceptOperator, if_neg plain, before, proceed]
  | openParen =>
    refine Or.inr ⟨rfl, fun next _ => ?_⟩
    rfl
  | openBracket => exact Or.inr ⟨rfl, fun next _ => rfl⟩
  | closeParen =>
    rcases balanced.opener_of_admits opens rfl admitted with ⟨start, rest, rfl⟩ | ⟨start, rest, rfl⟩
    · exact Or.inl ⟨_, [], rfl, rfl⟩
    · exact Or.inr ⟨rfl, fun next passed => by cases passed⟩
  | closeBracket =>
    rcases balanced.opener_of_admits opens rfl admitted with ⟨start, rest, rfl⟩ | ⟨start, rest, rfl⟩
    · exact Or.inr ⟨rfl, fun next passed => by cases passed⟩
    · exact Or.inl ⟨_, [], rfl, rfl⟩

/-- Where no operand has just ended, the first instruction of a well-placed stream applies no
operator. -/
theorem Balanced.head?_run_ne_apply {tokens : List Token} (balanced : y.Balanced outer (some role))
    (opens : role.endsOperand = false)
    (placed : Role.Placed outer (some role) (tokens.filterMap Token.mark?)) (symbol : String)
    (arity : Nat) : (y.run p (tokens.map .ok)).1.head? ≠ some (.apply symbol arity) := by
  induction tokens generalizing y outer role with
  | nil =>
    have admitted := Role.admits_closer (placed.last role rfl)
    rcases balanced.opener_of_admits opens rfl admitted with ⟨start, rest, rfl⟩ | ⟨start, rest, rfl⟩
    · exact (Option.some_ne_none _).symm
    · exact (Option.some_ne_none _).symm
  | cons t rest ih =>
    rw [List.map_cons]
    cases marked : t.mark? with
    | none =>
      rw [List.filterMap_cons_none marked] at placed
      rw [run_cons_of_ok (accept_of_blank marked p y), List.nil_append]
      exact ih balanced opens placed
    | some m =>
      rw [List.filterMap_cons_some marked] at placed
      have kept := balanced.accept (p := p) marked placed.admits 0
      have sends := balanced.sends_no_operator (p := p) opens marked (placed.admits role rfl)
      cases step : y.accept p t with
      | mk program outcome =>
        rw [step] at kept sends
        cases outcome with
        | error fault =>
          rw [run_cons_of_error step]
          rcases sends with ⟨i, later, rfl, other⟩ | ⟨rfl, _⟩
          · rintro ⟨rfl⟩
            cases other
          · exact (Option.some_ne_none _).symm
        | ok next =>
          rw [run_cons_of_ok step]
          rcases sends with ⟨i, later, rfl, other⟩ | ⟨rfl, still⟩
          · rintro ⟨rfl⟩
            cases other
          · exact ih (kept next rfl).1 (still next rfl) placed.later

/-- After a drain of two operators the second stands where the yard itself sends no operator. -/
theorem Balanced.run_ne_runDraining_of_drained {previous : Option Role} {rest : List Token}
    (balanced : y.Balanced outer previous)
    (placed : Role.Placed outer previous ((t :: rest).filterMap Token.mark?))
    (several : 2 ≤ y.drained p t) :
    (y.run p (.ok t :: rest.map .ok)).1 ≠ (y.runDraining p (.ok t :: rest.map .ok)).1 := by
  unfold drained at several
  split at several
  · next binary =>
    obtain ⟨first, second, later, below, sent, ⟨waiting, arity, rfl⟩, tested⟩ :=
      exists_of_two_le_drain several
    have marked : t.mark? = some (.operator t.raw) := by
      simp only [Token.mark?, binary.1]
    have operator : Role.ofMark outer previous (.operator t.raw) = .operator := by
      rw [Role.ofMark, ← balanced.enclosed, ← separates_eq, if_neg binary.2.1]
    rw [List.filterMap_cons_some marked] at placed
    have kept := balanced.accept (p := p) marked placed.admits 0
    have step := (accept_of_takesTwo binary).trans tested
    have stepDraining : y.acceptDraining p t =
        proceed .operator (drain p t.raw y.stack).1
          (.operator t.raw 2 :: (drain p t.raw y.stack).2) := if_pos binary
    rw [step] at kept
    have remaining := placed.later
    have next := (kept _ rfl).1
    rw [operator] at next remaining
    have head := next.head?_run_ne_apply (p := p) rfl remaining waiting arity
    rw [run_cons_of_ok step, runDraining_cons_of_ok stepDraining, sent]
    intro same
    -- The first operator is sent by both, so the second has to start what the yard sends later.
    have tails := (List.cons.inj same).2
    exact head (congrArg List.head? tails)
  · cases several

/-- A drain of two operators or more in a well-placed stream makes another program for good. -/
theorem Balanced.run_ne_runDraining {previous : Option Role} {tokens : List Token}
    (balanced : y.Balanced outer previous)
    (placed : Role.Placed outer previous (tokens.filterMap Token.mark?))
    (several : ∃ n ∈ y.drains p tokens, 2 ≤ n) :
    (y.run p (tokens.map .ok)).1 ≠ (y.runDraining p (tokens.map .ok)).1 := by
  induction tokens generalizing y outer previous with
  | nil =>
    obtain ⟨n, member, _⟩ := several
    cases member
  | cons t rest ih =>
    rw [List.map_cons]
    -- Up to the first drain of two operators both are the same yard and have sent the same.
    by_cases here : 2 ≤ y.drained p t
    · exact balanced.run_ne_runDraining_of_drained placed here
    · obtain ⟨n, member, two⟩ := several
      have same := acceptDraining_of_drained_le_one (Nat.le_of_lt_succ (Nat.not_le.1 here))
      have after : n ∈ match (y.accept p t).outcome with
          | .ok next => next.drains p rest
          | .error _ => [] := by
        rw [drains, same] at member
        rcases List.mem_cons.1 member with rfl | after
        · exact absurd two here
        · exact after
      cases step : y.accept p t with
      | mk program outcome =>
        rw [step] at same after
        cases outcome with
        | error fault => cases after
        | ok next =>
          rw [run_cons_of_ok step, runDraining_cons_of_ok same]
          intro equal
          have tails := List.append_cancel_left equal
          cases marked : t.mark? with
          | none =>
            rw [accept_of_blank marked] at step
            obtain rfl := Except.ok.inj (Step.mk.inj step).2
            rw [List.filterMap_cons_none marked] at placed
            exact ih balanced placed ⟨n, after, two⟩ tails
          | some m =>
            rw [List.filterMap_cons_some marked] at placed
            have kept := balanced.accept (p := p) marked placed.admits 0
            rw [step] at kept
            exact ih (kept next rfl).1 placed.later ⟨n, after, two⟩ tails

end Yard

/-- On the tokens of a phrase a draining yard comes to its end without a fault too. It makes the
same program as the yard itself if and only if no binary operator drains more than one operator. -/
theorem Config.items_eq_draining_iff {φ σ : Type} [Source σ (Except Fault Token)]
    (config : Config φ) {source : σ} {e : Phrase} {tokens : List Token}
    (fits : e.commasFit false = true) (spelled : tokens.filterMap Token.mark? = e.marks)
    (yielded : Source.items source = tokens.map .ok) :
    ∃ program : Program,
      Yard.empty.runDraining config.precedence (tokens.map .ok) = (program, none) ∧
      (Source.items (config.instructions source) = program.map .ok ↔
        ∀ n ∈ Yard.empty.drains config.precedence tokens, n ≤ 1) := by
  have ordered := Yard.run_phrase config.precedence fits spelled
  have streamed := config.items_of_run yielded ordered
  have clean : (Yard.empty.runDraining config.precedence (tokens.map .ok)).2 = none := by
    rw [Yard.fault_runDraining, ← Yard.fault_run config.precedence, ordered]
  refine ⟨_, Prod.ext rfl clean, ?_⟩
  constructor
  · intro same n member
    apply Nat.le_of_lt_succ
    apply Nat.not_le.1
    intro two
    have parted := Yard.balanced_empty.run_ne_runDraining (p := config.precedence)
      (Phrase.wellPlaced fits spelled) ⟨n, member, two⟩
    rw [streamed, List.map_inj_right fun _ _ => Except.ok.inj] at same
    exact parted (by rw [ordered, same])
  · intro single
    rw [streamed, Yard.runDraining_eq_run single, ordered]

/-- In `a + b * c + d` the second `+` drains two operators, so the programs are not the same. -/
theorem Config.items_eq_draining_iff_chained :
    let e : Phrase :=
      .binary (.word "a") "+" (.binary (.word "b") "*" (.binary (.word "c") "+"
        (.atom (.word "d"))))
    let tokens : List Token :=
      [⟨.word, "a", 0⟩, ⟨.operator, "+", 1⟩, ⟨.word, "b", 2⟩, ⟨.operator, "*", 3⟩,
       ⟨.word, "c", 4⟩, ⟨.operator, "+", 5⟩, ⟨.word, "d", 6⟩]
    (e.commasFit false = true ∧ tokens.filterMap Token.mark? = e.marks) ∧
      ∃ program : Program,
        Yard.empty.runDraining (Config.standard : Config Unit).precedence (tokens.map .ok) =
          (program, none) ∧
        Source.items ((Config.standard : Config Unit).instructions
          (tokens.map (.ok : Token → Except Fault Token))) ≠ program.map .ok := by
  intro e tokens
  have fits : e.commasFit false = true := by decide
  have spelled : tokens.filterMap Token.mark? = e.marks := by decide
  refine ⟨⟨fits, spelled⟩, ?_⟩
  obtain ⟨program, ran, same⟩ :=
    (Config.standard : Config Unit).items_eq_draining_iff fits spelled (Source.items_list _)
  refine ⟨program, ran, ?_⟩
  rw [ne_eq, same]
  intro single
  have drained : Yard.empty.drains (Config.standard : Config Unit).precedence tokens =
      [0, 0, 0, 0, 0, 2, 0] := by decide
  rw [drained] at single
  exact absurd (single 2 (by decide)) (by decide)

end Reckoner
