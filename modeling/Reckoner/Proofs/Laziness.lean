import Reckoner.Proofs.Evaluation
import Reckoner.Proofs.Yard.Turns

set_option autoImplicit false

namespace Reckoner

namespace Machine

variable {φ : Type} [Host φ]

/-- Carries out instructions as a stage hands them out, for so many turns of the stage: what it comes
to, if it is through by then. -/
def runTurns {σ : Type} (config : Config φ) (pull : Upstream σ) :
    Nat → Machine φ → Stage σ → Option (Except Fault (Machine φ))
  | 0, _, _ => none
  | n + 1, m, s =>
    match s.turn pull with
    | (.ask _, next) => runTurns config pull n m next
    | (.hand none, _) => some (.ok m)
    | (.hand (some (.error fault)), _) => some (.error fault)
    | (.hand (some (.ok i)), next) =>
      match m.step config i with
      | (after, none) => runTurns config pull n after next
      | (_, some fault) => some (.error fault)

section turns

variable {σ : Type} {config : Config φ} {pull : Upstream σ} {m : Machine φ} {s next : Stage σ}

theorem runTurns_of_ask {answer : Option (Except Fault Token)}
    (here : s.turn pull = (.ask answer, next)) (n : Nat) :
    m.runTurns config pull (n + 1) s = m.runTurns config pull n next := by
  simp only [runTurns, here]

theorem runTurns_of_nothing (here : s.turn pull = (.hand none, next)) (n : Nat) :
    m.runTurns config pull (n + 1) s = some (.ok m) := by
  simp only [runTurns, here]

theorem runTurns_of_fault {fault : Fault}
    (here : s.turn pull = (.hand (some (.error fault)), next)) (n : Nat) :
    m.runTurns config pull (n + 1) s = some (.error fault) := by
  simp only [runTurns, here]

theorem runTurns_of_passed {i : Instruction} {after : Machine φ}
    (here : s.turn pull = (.hand (some (.ok i)), next)) (step : m.step config i = (after, none))
    (n : Nat) : m.runTurns config pull (n + 1) s = after.runTurns config pull n next := by
  simp only [runTurns, here, step]

theorem runTurns_of_failed {i : Instruction} {left : Machine φ} {fault : Fault}
    (here : s.turn pull = (.hand (some (.ok i)), next))
    (step : m.step config i = (left, some fault)) (n : Nat) :
    m.runTurns config pull (n + 1) s = some (.error fault) := by
  simp only [runTurns, here, step]

theorem runTurns_of_le {n k : Nat} {outcome : Except Fault (Machine φ)}
    (through : m.runTurns config pull n s = some outcome) (enough : n ≤ k) :
    m.runTurns config pull k s = some outcome := by
  induction n generalizing k m s with
  | zero => cases through
  | succ n ih =>
    obtain ⟨k, rfl⟩ : ∃ more, k = more + 1 := ⟨k - 1, by omega⟩
    have enough : n ≤ k := by omega
    rcases Stage.turn_cases pull s with ⟨i, rest, _, here⟩ | ⟨fault, _, _, here⟩ | ⟨_, _, _, here⟩ |
        ⟨_, _, _, here⟩
    · match step : m.step config i with
      | (after, none) =>
        rw [runTurns_of_passed here step] at through ⊢
        exact ih through enough
      | (left, some fault) =>
        rw [runTurns_of_failed here step] at through ⊢
        exact through
    · rw [runTurns_of_fault here] at through ⊢
      exact through
    · rw [runTurns_of_nothing here] at through ⊢
      exact through
    · rw [runTurns_of_ask here] at through ⊢
      exact ih through enough

/-- Where the instructions that are handed out fail, the evaluation is through with their fault. -/
theorem runTurns_of_handed {n : Nat} {program : Program} {last : Option Fault} {fault : Fault}
    (handed : Stage.handed (Stage.turns pull n s).1 = (program.stream last).map some)
    (failed : m.runProgram config program = .error fault) :
    m.runTurns config pull n s = some (.error fault) := by
  induction n generalizing m s program with
  | zero =>
    cases program with
    | nil => cases failed
    | cons i others => cases handed
  | succ n ih =>
    cases program with
    | nil => cases failed
    | cons i others =>
      rcases Stage.turn_cases pull s with ⟨j, rest, _, here⟩ | ⟨raised, _, _, here⟩ |
          ⟨_, _, _, here⟩ | ⟨_, _, _, here⟩ <;> rw [Stage.turns, here] at handed
      · obtain ⟨same, later⟩ := List.cons.inj handed
        obtain rfl := Except.ok.inj (Option.some.inj same)
        rw [runProgram] at failed
        cases step : m.step config j with
        | mk after raised =>
          rw [step] at failed
          cases raised with
          | none =>
            rw [runTurns_of_passed here step]
            exact ih later failed
          | some stop =>
            obtain rfl := Except.error.inj failed
            exact runTurns_of_failed here step n
      · cases handed
      · cases handed
      · rw [runTurns_of_ask here]
        exact ih handed failed

end turns

section source

variable {σ : Type} [Source σ (Except Fault Token)] {s last : Stage σ}

/-- The pulls before a handing take their turns, and nothing is carried out in them. -/
theorem exists_runTurns_asked (config : Config φ) {asked : List (Option (Except Fault Token))}
    {item : Option (Except Fault Instruction)}
    (calls : Stage.turns Source.pull (asked.length + 1) s =
      (asked.map .ask ++ [.hand item], last)) :
    ∃ between : Stage σ, between.turn Source.pull = (.hand item, last) ∧
      ∀ (m : Machine φ) n, m.runTurns config Source.pull (asked.length + n) s =
        m.runTurns config Source.pull n between := by
  induction asked generalizing s with
  | nil =>
    obtain ⟨event, left⟩ := Prod.mk.inj calls
    refine ⟨s, Prod.ext (List.cons.inj event).1 left, fun m n => ?_⟩
    rw [List.length_nil, Nat.zero_add]
  | cons answer rest ih =>
    rw [List.length_cons, Stage.turns] at calls
    obtain ⟨events, left⟩ := Prod.mk.inj calls
    obtain ⟨event, later⟩ := List.cons.inj events
    obtain ⟨between, hand, same⟩ := ih (Prod.ext later left)
    refine ⟨between, hand, fun m n => ?_⟩
    have here : s.turn Source.pull = (.ask answer, (s.turn Source.pull).2) := Prod.ext event rfl
    rw [List.length_cons, Nat.succ_add, runTurns_of_ask here, same]

/-- With turns enough the evaluation comes to what it comes to by calls. -/
theorem exists_runTurns (config : Config φ) (m : Machine φ) (s : Stage σ) :
    ∃ n, m.runTurns config Source.pull n s = some (m.runSource config s).1 := by
  induction size : Source.size s using Nat.strongRecOn generalizing m s with
  | _ n ih =>
    subst size
    obtain ⟨asked, calls⟩ := Stage.exists_turns_next s
    obtain ⟨between, here, same⟩ := exists_runTurns_asked config calls
    match call : s.next with
    | (none, rest) =>
      rw [call] at here
      refine ⟨asked.length + 1, ?_⟩
      rw [same, runTurns_of_nothing here, runSource_of_ended config call]
    | (some (.error fault), rest) =>
      rw [call] at here
      refine ⟨asked.length + 1, ?_⟩
      rw [same, runTurns_of_fault here, runSource_of_fault config call]
    | (some (.ok i), rest) =>
      rw [call] at here
      rw [runSource_of_instruction config call]
      match step : m.step config i with
      | (after, none) =>
        obtain ⟨k, through⟩ := ih _ (Source.size_lt_of_pull call) after rest rfl
        refine ⟨asked.length + (k + 1), ?_⟩
        rw [same, runTurns_of_passed here step, through]
      | (left, some fault) =>
        refine ⟨asked.length + 1, ?_⟩
        rw [same, runTurns_of_failed here step]

end source

/-- Where the instructions that the first answers determine fail, so does the evaluation, whatever
comes after these answers. -/
theorem exists_runTurns_of_failed {σ : Type} {config : Config φ} {pull : Upstream σ} {u : σ}
    {m : Machine φ} {k : Nat} {fault : Fault}
    (failed : m.runProgram config (Yard.empty.sends config.precedence (pull.answers u k).1).1 =
      .error fault) :
    ∃ n, ∀ turns, n ≤ turns →
      m.runTurns config pull turns (config.instructions u) = some (.error fault) := by
  obtain ⟨n, handed⟩ := Stage.exists_turns_determined pull config.precedence u k
  exact ⟨n, fun turns enough => runTurns_of_le (runTurns_of_handed handed failed) enough⟩

end Machine

/-- However a stream of tokens is pulled, and if it never ends or goes on after a fault or its end: a
stage over it hands out instructions, then at most a fault and then nothing any more, it pulls only
when all was handed out that the answers so far determine, and never after an answer that is not a
token which the yard accepts. All that the first answers determine is handed out, and streams of
which these are alike have the same history up to the next pull. So where the instructions that they
determine fail, the evaluation fails in the same way. A call is the pulls that it takes and the turn
that hands out, and by calls comes what all the answers of a stream determine. -/
theorem Config.instructions_lazy {φ σ : Type} (config : Config φ) (pull : Upstream σ)
    (upstream : σ) :
    let p := config.precedence
    let first := config.instructions upstream
    let events (n : Nat) := (first.turns pull n).1
    (∀ n, Stage.Lazy p (events n) ∧
      Stage.answered (events n) =
        (pull.answers upstream (Stage.answered (events n)).length).1) ∧
    (∀ k, ∃ n, Stage.handed (events n) =
      (Stage.determined p (pull.answers upstream k).1).map some) ∧
    (∀ {τ : Type} (pull' : Upstream τ) (other : τ) k,
      (pull.answers upstream k).1 = (pull'.answers other k).1 →
      ∀ n, (Stage.answered (events n)).length ≤ k →
        (Stage.turns pull' n (config.instructions other)).1 = events n) ∧
    (∀ [Host φ] k fault,
      Machine.empty.runProgram config (Yard.empty.sends p (pull.answers upstream k).1).1 =
        .error fault →
      ∃ n, ∀ turns, n ≤ turns →
        Machine.empty.runTurns config pull turns first = some (.error fault)) ∧
    ∀ [Source σ (Except Fault Token)], pull = Source.pull →
      (∀ s : Stage σ, ∃ asked : List (Option (Except Fault Token)),
        s.turns pull (asked.length + 1) = (asked.map .ask ++ [.hand s.next.1], s.next.2)) ∧
      Source.items first = Stage.determined p ((Source.items upstream).map some ++ [none]) ∧
      ∀ [Host φ] k fault,
        Machine.empty.runProgram config (Yard.empty.sends p (pull.answers upstream k).1).1 =
          .error fault →
        (config.evaluate first).1 = .error fault := by
  intro p first events
  refine ⟨fun n => ⟨Stage.lazy_turns pull p upstream n, ?_⟩,
    Stage.exists_turns_determined pull p upstream,
    fun pull' other k alike n few => (Stage.turns_congr alike n few).1,
    fun k fault failed => Machine.exists_runTurns_of_failed failed, ?_⟩
  · exact (congrArg Prod.fst (Stage.answers_turns pull p upstream n)).symm
  · rintro source rfl
    refine ⟨Stage.exists_turns_next, Stage.items_eq_determined p upstream,
      fun k fault failed => ?_⟩
    obtain ⟨n, ended⟩ := Machine.exists_runTurns_of_failed failed
    obtain ⟨m, through⟩ := Machine.exists_runTurns config .empty first
    have late := Machine.runTurns_of_le through (Nat.le_max_right n m)
    rw [ended _ (Nat.le_max_left n m)] at late
    have failed : (Machine.empty.runSource config first).1 = .error fault :=
      (Option.some.inj late).symm
    show (Machine.empty.runSource config first).1.map Machine.finish = _
    rw [failed]
    rfl

/-- Where `f()` comes first and `f` is not bound the call fails, if brackets without end follow or
nothing does, and up to the next pull the history is the same. -/
theorem Config.instructions_lazy_endless :
    let _ : Host Unit := ⟨fun _ operands => return .list operands⟩
    let config : Config Unit := standard
    let called : List (Except Fault Token) :=
      [.ok ⟨.word, "f", 0⟩, .ok ⟨.openParen, "(", 1⟩, .ok ⟨.closeParen, ")", 2⟩]
    let endless : Upstream Nat := fun place =>
      (some (called.getD place (.ok ⟨.openBracket, "[", place⟩)), place + 1)
    let short : Upstream (List (Except Fault Token)) := Source.pull
    (Machine.empty.runProgram config
        (Yard.empty.sends config.precedence (endless.answers 0 3).1).1 =
          .error (.notCallable .missing) ∧
      (endless.answers 0 3).1 = (short.answers called 3).1) ∧
    (∃ n, ∀ turns, n ≤ turns →
      Machine.empty.runTurns config endless turns (config.instructions 0) =
        some (.error (.notCallable .missing))) ∧
    (∀ n, (Stage.answered (Stage.turns endless n (config.instructions 0)).1).length ≤ 3 →
      (Stage.turns short n (config.instructions called)).1 =
        (Stage.turns endless n (config.instructions 0)).1) ∧
    (config.evaluate (config.instructions called)).1 = .error (.notCallable .missing) := by
  intro _ config called endless short
  have failed : Machine.empty.runProgram config
      (Yard.empty.sends config.precedence (endless.answers 0 3).1).1 =
        .error (.notCallable .missing) := by rfl
  have alike : (endless.answers 0 3).1 = (short.answers called 3).1 := by rfl
  obtain ⟨_, _, congr, fails, _⟩ := config.instructions_lazy endless 0
  obtain ⟨_, _, _, _, calls⟩ := config.instructions_lazy short called
  have failed' := failed
  rw [alike] at failed'
  exact ⟨⟨failed, alike⟩, fails 3 _ failed, congr short called 3 alike, (calls rfl).2.2 3 _ failed'⟩

end Reckoner
