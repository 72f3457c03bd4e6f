import Reckoner.Proofs.Yard.Feed
import Reckoner.Yard.Stream

set_option autoImplicit false

/-!
A stage taken apart into turns.

A turn pulls once or hands out once, and a call is the pulls it takes and then the handing. So a
history of turns tells in which order a stage pulls and hands out, over any stream of tokens
whatever: it need not end, and may go on after a fault or after its end.

`Told` is what a history tells of its stage: what was handed out and what is ready make up what the
answers so far determine, and a stage that still pulls has accepted them all.
-/

namespace Reckoner

/-- How a stream of tokens is pulled: what comes, and what is left of the stream. -/
abbrev Upstream (σ : Type) : Type := σ → Option (Except Fault Token) × σ

/-- What the first pulls are answered, and what they leave of a stream. -/
def Upstream.answers {σ : Type} (pull : Upstream σ) (tokens : σ) :
    Nat → List (Option (Except Fault Token)) × σ
  | 0 => ([], tokens)
  | k + 1 =>
    ((answers pull tokens k).1 ++ [(pull (answers pull tokens k).2).1],
      (pull (answers pull tokens k).2).2)

namespace Upstream

variable {σ τ : Type} {pull : Upstream σ} {pull' : Upstream τ} {u : σ} {v : τ} {j k : Nat}

theorem exists_answers_of_le (pull : Upstream σ) (u : σ) (fewer : j ≤ k) :
    ∃ more, (pull.answers u k).1 = (pull.answers u j).1 ++ more := by
  induction fewer with
  | refl => exact ⟨[], (List.append_nil _).symm⟩
  | @step k _ ih =>
    obtain ⟨more, whole⟩ := ih
    refine ⟨more ++ [(pull (pull.answers u k).2).1], ?_⟩
    rw [answers, whole, List.append_assoc]

theorem length_answers (pull : Upstream σ) (u : σ) (k : Nat) :
    (pull.answers u k).1.length = k := by
  induction k with
  | zero => rfl
  | succ k ih => rw [answers, List.length_append, ih, List.length_singleton]

theorem answer_eq (alike : (pull.answers u k).1 = (pull'.answers v k).1) (fewer : j < k) :
    (pull' (pull'.answers v j).2).1 = (pull (pull.answers u j).2).1 := by
  obtain ⟨more, whole⟩ := exists_answers_of_le pull u fewer
  obtain ⟨more', whole'⟩ := exists_answers_of_le pull' v fewer
  rw [whole, whole'] at alike
  have size : (pull.answers u (j + 1)).1.length = (pull'.answers v (j + 1)).1.length := by
    rw [length_answers, length_answers]
  have ⟨front, _⟩ := List.append_inj alike size
  rw [answers, answers] at front
  have ⟨_, last⟩ := List.append_inj' front rfl
  exact (List.cons.inj last).1.symm

end Upstream

/-- What answers determine, up to the first that ends a run: the instructions that the yard sends,
and the fault after them. -/
def Yard.sends (p : Precedence) (y : Yard) :
    List (Option (Except Fault Token)) → Program × Option Fault
  | [] => ([], none)
  | none :: _ => y.finish
  | some (.error fault) :: _ => ([], some fault)
  | some (.ok t) :: rest =>
    match y.accept p t with
    | ⟨program, .error fault⟩ => (program, some fault)
    | ⟨program, .ok next⟩ => (program ++ (next.sends p rest).1, (next.sends p rest).2)

namespace Yard

variable {p : Precedence} {y next : Yard} {tokens : List Token} {sent : Program}

theorem sends_of_feed (passed : y.feed p tokens = ⟨sent, .ok next⟩)
    (more : List (Option (Except Fault Token))) :
    y.sends p (tokens.map (fun t => some (.ok t)) ++ more) =
      (sent ++ (next.sends p more).1, (next.sends p more).2) := by
  induction tokens generalizing y sent with
  | nil =>
    obtain ⟨rfl, same⟩ := Step.mk.inj passed
    obtain rfl := Except.ok.inj same
    rfl
  | cons t rest ih =>
    obtain ⟨first, between, later, step, remaining, rfl⟩ := exists_of_feed_cons passed
    simp only [List.map_cons, List.cons_append, sends, step, ih remaining, List.append_assoc]

/-- All the answers of a stream that ends determine what a run over its items makes. -/
theorem sends_eq_run (p : Precedence) (y : Yard) (items : List (Except Fault Token)) :
    y.sends p (items.map some ++ [none]) = y.run p items := by
  induction items generalizing y with
  | nil => rfl
  | cons item rest ih =>
    cases item with
    | error fault => rfl
    | ok t =>
      cases step : y.accept p t with
      | mk program outcome =>
        cases outcome with
        | error fault => simp only [List.map_cons, List.cons_append, sends, run, step]
        | ok next => simp only [List.map_cons, List.cons_append, sends, run, step, ih next]

end Yard

def Stage.determined (p : Precedence) (answers : List (Option (Except Fault Token))) :
    List (Except Fault Instruction) :=
  (Yard.empty.sends p answers).1.stream (Yard.empty.sends p answers).2

namespace Stage

/-- By calls a fresh stage hands out what all the answers of its stream determine. -/
theorem items_eq_determined {σ : Type} [Source σ (Except Fault Token)] (p : Precedence)
    (tokens : σ) : Source.items (Stage.new p tokens) =
      determined p ((Source.items tokens).map some ++ [none]) := by
  rw [items_new, determined, Yard.sends_eq_run]

/-- What a stage does in one turn. -/
inductive Event where
  | ask (answer : Option (Except Fault Token))
  | hand (item : Option (Except Fault Instruction))

/-- What was answered in the turns of a history. -/
def answered (events : List Event) : List (Option (Except Fault Token)) :=
  events.filterMap fun
    | .ask answer => some answer
    | .hand _ => none

/-- What was handed out in the turns of a history, nothing included. -/
def handed (events : List Event) : List (Option (Except Fault Instruction)) :=
  events.filterMap fun
    | .ask _ => none
    | .hand item => some item

theorem answered_append (first second : List Event) :
    answered (first ++ second) = answered first ++ answered second :=
  List.filterMap_append

theorem handed_append (first second : List Event) :
    handed (first ++ second) = handed first ++ handed second :=
  List.filterMap_append

theorem answered_concat_hand (events : List Event) (item : Option (Except Fault Instruction)) :
    answered (events ++ [.hand item]) = answered events := by
  rw [answered_append]
  exact List.append_nil _

theorem answered_cons_ask (answer : Option (Except Fault Token)) (later : List Event) :
    answered (.ask answer :: later) = answer :: answered later := rfl

theorem handed_cons_ask (answer : Option (Except Fault Token)) (later : List Event) :
    handed (.ask answer :: later) = handed later := rfl

def hands (items : List (Except Fault Instruction)) : List Event :=
  items.map fun item => .hand (some item)

theorem answered_hands (items : List (Except Fault Instruction)) : answered (hands items) = [] := by
  induction items with
  | nil => rfl
  | cons item rest ih => exact ih

theorem handed_hands (items : List (Except Fault Instruction)) :
    handed (hands items) = items.map some := by
  induction items with
  | nil => rfl
  | cons item rest ih => exact congrArg (some item :: ·) ih

section turn

variable {σ : Type}

/-- What was answered is taken in: what it determines is ready, and either it is a token that the
yard accepts or nothing after it counts. -/
theorem take_cases (s : Stage σ) (answer : Option (Except Fault Token)) (rest : σ)
    (queue : s.queue = []) (clear : s.fault = none) :
    let next := s.take answer rest
    next.precedence = s.precedence ∧
      s.yard.sends s.precedence [answer] = (next.queue, next.fault) ∧
      ((∃ t, answer = some (.ok t) ∧ next.done = s.done ∧ next.fault = none ∧
          s.yard.accept s.precedence t = ⟨next.queue, .ok next.yard⟩) ∨
        (next.done = true ∧ ∀ more,
          s.yard.sends s.precedence (answer :: more) = s.yard.sends s.precedence [answer])) := by
  cases answer with
  | none => exact ⟨rfl, rfl, .inr ⟨rfl, fun _ => rfl⟩⟩
  | some item =>
    cases item with
    | error fault => exact ⟨rfl, congrArg (·, some fault) queue.symm, .inr ⟨rfl, fun _ => rfl⟩⟩
    | ok t =>
      cases step : s.yard.accept s.precedence t with
      | mk program outcome =>
        cases outcome with
        | error fault =>
          have sends (more : List (Option (Except Fault Token))) :
              s.yard.sends s.precedence (some (.ok t) :: more) = (program, some fault) := by
            simp only [Yard.sends, step]
          rw [take_of_error step]
          exact ⟨rfl, sends [], .inr ⟨rfl, fun more => (sends more).trans (sends []).symm⟩⟩
        | ok yard =>
          rw [take_of_ok step]
          refine ⟨rfl, ?_, .inl ⟨t, rfl, rfl, clear, step⟩⟩
          simp only [Yard.sends, step, List.append_nil, clear]

/-- One turn: what is ready is handed out, and if nothing is, it pulls, or hands out nothing once
nothing more is pulled. -/
def turn (pull : Upstream σ) (s : Stage σ) : Event × Stage σ :=
  match s.deliver? with
  | some (item, rest) => (.hand (some item), rest)
  | none =>
    if s.done then (.hand none, s)
    else (.ask (pull s.tokens).1, s.take (pull s.tokens).1 (pull s.tokens).2)

def turns (pull : Upstream σ) : Nat → Stage σ → List Event × Stage σ
  | 0, s => ([], s)
  | n + 1, s =>
    ((s.turn pull).1 :: (turns pull n (s.turn pull).2).1, (turns pull n (s.turn pull).2).2)

variable {pull : Upstream σ}

theorem turns_add (pull : Upstream σ) (m n : Nat) (s : Stage σ) :
    turns pull (m + n) s =
      ((turns pull m s).1 ++ (turns pull n (turns pull m s).2).1,
        (turns pull n (turns pull m s).2).2) := by
  induction m generalizing s with
  | zero => rw [Nat.zero_add, turns, List.nil_append]
  | succ m ih => rw [Nat.succ_add, turns, turns, ih, List.cons_append]

theorem turns_succ (pull : Upstream σ) (n : Nat) (s : Stage σ) :
    turns pull (n + 1) s =
      ((turns pull n s).1 ++ [((turns pull n s).2.turn pull).1],
        ((turns pull n s).2.turn pull).2) :=
  turns_add pull n 1 s

theorem turn_cases (pull : Upstream σ) (s : Stage σ) :
    (∃ i rest, s.queue = i :: rest ∧
        s.turn pull = (.hand (some (.ok i)), { s with queue := rest })) ∨
      (∃ fault, s.queue = [] ∧ s.fault = some fault ∧
        s.turn pull = (.hand (some (.error fault)), { s with fault := none })) ∨
      (s.queue = [] ∧ s.fault = none ∧ s.done = true ∧ s.turn pull = (.hand none, s)) ∨
      (s.queue = [] ∧ s.fault = none ∧ s.done = false ∧
        s.turn pull =
          (.ask (pull s.tokens).1, s.take (pull s.tokens).1 (pull s.tokens).2)) := by
  obtain ⟨precedence, tokens, yard, queue, fault, done⟩ := s
  cases queue with
  | cons i rest => exact .inl ⟨i, rest, rfl, rfl⟩
  | nil =>
    cases fault with
    | some fault => exact .inr (.inl ⟨fault, rfl, rfl, rfl⟩)
    | none =>
      cases done with
      | true => exact .inr (.inr (.inl ⟨rfl, rfl, rfl, rfl⟩))
      | false => exact .inr (.inr (.inr ⟨rfl, rfl, rfl, rfl⟩))

theorem turn_of_idle {s : Stage σ} (queue : s.queue = []) (clear : s.fault = none)
    (running : s.done = false) :
    s.turn pull = (.ask (pull s.tokens).1, s.take (pull s.tokens).1 (pull s.tokens).2) := by
  simp only [turn, deliver?, queue, clear, running, Option.map_none, Bool.false_eq_true, if_false]

/-- All that is ready is handed out in as many turns. -/
theorem exists_turns_ready (pull : Upstream σ) (s : Stage σ) :
    ∃ n, turns pull n s =
      (hands (s.queue.stream s.fault), { s with queue := [], fault := none }) := by
  obtain ⟨precedence, tokens, yard, queue, fault, done⟩ := s
  induction queue with
  | nil =>
    cases fault with
    | none => exact ⟨0, rfl⟩
    | some fault => exact ⟨1, rfl⟩
  | cons i rest ih =>
    obtain ⟨n, later⟩ := ih
    refine ⟨n + 1, ?_⟩
    have here : turn pull ⟨precedence, tokens, yard, i :: rest, fault, done⟩ =
        (.hand (some (.ok i)), ⟨precedence, tokens, yard, rest, fault, done⟩) := rfl
    rw [turns, here, later]
    rfl

/-- A call is the pulls that it takes, and then the turn that hands out. -/
theorem exists_turns_next [Source σ (Except Fault Token)] (s : Stage σ) :
    ∃ asked : List (Option (Except Fault Token)),
      turns Source.pull (asked.length + 1) s =
        (asked.map .ask ++ [.hand s.next.1], s.next.2) := by
  fun_induction next s with
  | case1 s item rest ready =>
    refine ⟨[], ?_⟩
    simp only [List.length_nil, turns, turn, ready]
    rfl
  | case2 s idle done =>
    refine ⟨[], ?_⟩
    simp only [List.length_nil, turns, turn, idle, done]
    rfl
  | case3 s idle running ih =>
    obtain ⟨asked, later⟩ := ih
    refine ⟨(Source.pull s.tokens).1 :: asked, ?_⟩
    have here : s.turn Source.pull = (.ask (Source.pull s.tokens).1, s.feed) := by
      simp only [turn, idle, running]
      rfl
    rw [List.length_cons, turns, here, later]
    rfl

end turn

/-- What a history tells of the stage that it leaves. -/
structure Told {σ : Type} (p : Precedence) (events : List Event) (s : Stage σ) : Prop where
  precedence : s.precedence = p
  /-- First come items, and what is ready is what they lack of what the answers determine. Nothing
  is handed out only after all of it. -/
  items : ∃ items nothings, handed events = items.map some ++ List.replicate nothings none ∧
    items ++ s.queue.stream s.fault = determined p (answered events) ∧
    (nothings = 0 ∨ s.queue = [] ∧ s.fault = none ∧ s.done = true)
  /-- Whoever still pulls has accepted all that came. -/
  running : s.done = false → s.fault = none ∧ ∃ tokens sent,
    answered events = tokens.map (fun t => some (.ok t)) ∧
      Yard.empty.feed p tokens = ⟨sent, .ok s.yard⟩
  /-- Whoever does not pull has what ends the answers. -/
  ended : s.done = true → ∀ more,
    Yard.empty.sends p (answered events ++ more) = Yard.empty.sends p (answered events)

namespace Told

variable {σ : Type} {p : Precedence} {events : List Event} {s : Stage σ}

theorem new (p : Precedence) (tokens : σ) : Told p [] (Stage.new p tokens) :=
  ⟨rfl, ⟨[], 0, rfl, rfl, .inl rfl⟩, fun _ => ⟨rfl, [], [], rfl, rfl⟩, nofun⟩

/-- Where a stage pulls, all that the answers determine was handed out. -/
theorem handed_of_running (told : Told p events s) (queue : s.queue = [])
    (running : s.done = false) : handed events = (determined p (answered events)).map some := by
  obtain ⟨items, nothings, given, whole, none⟩ := told.items
  have ready : s.queue.stream s.fault = [] := by
    rw [queue, (told.running running).1]
    rfl
  rw [ready, List.append_nil] at whole
  rcases none with rfl | ⟨_, _, done⟩
  · rw [given, whole]
    exact List.append_nil _
  · rw [running] at done
    cases done

theorem take (told : Told p events s) (queue : s.queue = []) (running : s.done = false)
    (answer : Option (Except Fault Token)) (rest : σ) :
    Told p (events ++ [.ask answer]) (s.take answer rest) := by
  have given := told.handed_of_running queue running
  obtain ⟨clear, tokens, sent, accepted, passed⟩ := told.running running
  have ⟨same, latest, ways⟩ := take_cases s answer rest queue clear
  generalize s.take answer rest = next at same latest ways
  rw [told.precedence] at same latest ways
  have before : determined p (answered events) = sent.map .ok := by
    have sends := Yard.sends_of_feed passed []
    rw [List.append_nil] at sends
    rw [determined, accepted, sends, Yard.sends, List.append_nil]
    exact List.append_nil _
  have asked : answered (events ++ [.ask answer]) =
      tokens.map (fun t => some (.ok t)) ++ [answer] := by
    rw [answered_append, accepted]
    rfl
  have sends (more : List (Option (Except Fault Token))) :
      Yard.empty.sends p (answered (events ++ [.ask answer]) ++ more) =
        (sent ++ (s.yard.sends p (answer :: more)).1, (s.yard.sends p (answer :: more)).2) := by
    rw [asked, List.append_assoc]
    exact Yard.sends_of_feed passed (answer :: more)
  have now := sends []
  rw [List.append_nil] at now
  refine ⟨same, ⟨sent.map .ok, 0, ?_, ?_, .inl rfl⟩, fun open' => ?_, fun done more => ?_⟩
  · rw [handed_append, given, before]
    rfl
  · rw [determined, now, latest, Program.stream_append]
  · rcases ways with ⟨t, rfl, _, none, step⟩ | ⟨done, _⟩
    · refine ⟨none, tokens ++ [t], sent ++ next.queue, ?_, ?_⟩
      · rw [asked, List.map_append]
        rfl
      · have last : s.yard.feed p [t] = ⟨next.queue, .ok next.yard⟩ := by
          rw [Yard.feed_cons_of_ok step, Yard.feed_nil, List.append_nil]
        exact Yard.feed_append passed last
    · rw [open'] at done
      cases done
  · rcases ways with ⟨t, _, still, _, _⟩ | ⟨_, last⟩
    · rw [still, running] at done
      cases done
    · rw [sends, now, last]

/-- Where something is ready, what was handed out are the items before it. -/
theorem exists_items_of_ready (told : Told p events s) {item : Except Fault Instruction}
    {rest : List (Except Fault Instruction)} (ready : s.queue.stream s.fault = item :: rest) :
    ∃ items, handed events = items.map some ∧
      items ++ item :: rest = determined p (answered events) := by
  obtain ⟨items, nothings, given, whole, rfl | ⟨queue, clear, _⟩⟩ := told.items
  · refine ⟨items, ?_, ready ▸ whole⟩
    rw [given]
    exact List.append_nil _
  · rw [queue, clear] at ready
    cases ready

/-- What is handed out leaves the yard as it is, and the answers. -/
theorem hand (told : Told p events s) {item : Option (Except Fault Instruction)} {queue : Program}
    {fault : Option Fault} (clear : s.fault = none → fault = none)
    (items : ∃ items nothings,
      handed (events ++ [.hand item]) = items.map some ++ List.replicate nothings none ∧
        items ++ queue.stream fault = determined p (answered events) ∧
        (nothings = 0 ∨ queue = [] ∧ fault = none ∧ s.done = true)) :
    Told p (events ++ [.hand item]) { s with queue := queue, fault := fault } := by
  have same := answered_concat_hand events item
  exact ⟨told.precedence, same ▸ items, fun running => same ▸ (told.running running).imp_left clear,
    same ▸ told.ended⟩

theorem turn (told : Told p events s) (pull : Upstream σ) :
    Told p (events ++ [(s.turn pull).1]) (s.turn pull).2 := by
  rcases turn_cases pull s with ⟨i, rest, queue, here⟩ | ⟨fault, queue, raised, here⟩ |
      ⟨queue, clear, done, here⟩ | ⟨queue, clear, running, here⟩ <;> rw [here]
  · have ready : s.queue.stream s.fault = .ok i :: Program.stream rest s.fault := by
      rw [queue]
      rfl
    obtain ⟨items, given, whole⟩ := told.exists_items_of_ready ready
    refine told.hand id ⟨items ++ [.ok i], 0, ?_, ?_, .inl rfl⟩
    · rw [handed_append, given, List.map_append]
      exact (List.append_nil _).symm
    · rw [← whole, List.append_assoc]
      rfl
  · have ready : s.queue.stream s.fault = [.error fault] := by
      rw [queue, raised]
      rfl
    obtain ⟨items, given, whole⟩ := told.exists_items_of_ready ready
    refine told.hand (fun _ => rfl) ⟨items ++ [.error fault], 0, ?_, ?_, .inl rfl⟩
    · rw [handed_append, given, List.map_append]
      exact (List.append_nil _).symm
    · rw [← whole, queue, List.append_assoc]
      rfl
  · obtain ⟨items, nothings, given, whole, _⟩ := told.items
    refine told.hand id ⟨items, nothings + 1, ?_, whole, .inr ⟨queue, clear, done⟩⟩
    rw [handed_append, given, List.append_assoc, List.replicate_succ']
    rfl
  · exact told.take queue running _ _

end Told

section runs

variable {σ τ : Type} {pull : Upstream σ} {pull' : Upstream τ} {p : Precedence} {u : σ} {v : τ}

theorem told_turns (pull : Upstream σ) (p : Precedence) (u : σ) (n : Nat) :
    Told p (turns pull n (Stage.new p u)).1 (turns pull n (Stage.new p u)).2 := by
  induction n with
  | zero => exact .new p u
  | succ n ih =>
    rw [turns_succ]
    exact ih.turn pull

@[simp] theorem tokens_take (s : Stage σ) (answer : Option (Except Fault Token)) (rest : σ) :
    (s.take answer rest).tokens = rest := by
  unfold take
  split
  · split <;> rfl
  · rfl
  · rfl

/-- Each pull has gone to the stream, and no other. -/
theorem answers_turns (pull : Upstream σ) (p : Precedence) (u : σ) (n : Nat) :
    pull.answers u (answered (turns pull n (Stage.new p u)).1).length =
      (answered (turns pull n (Stage.new p u)).1, (turns pull n (Stage.new p u)).2.tokens) := by
  induction n with
  | zero => rfl
  | succ n ih =>
    rw [turns_succ]
    generalize (turns pull n (Stage.new p u)).1 = events at ih ⊢
    generalize (turns pull n (Stage.new p u)).2 = s at ih ⊢
    rcases turn_cases pull s with ⟨i, rest, _, here⟩ | ⟨fault, _, _, here⟩ | ⟨_, _, _, here⟩ |
        ⟨_, _, _, here⟩ <;> rw [here]
    · rw [answered_concat_hand]
      exact ih
    · rw [answered_concat_hand]
      exact ih
    · rw [answered_concat_hand]
      exact ih
    · rw [answered_append, List.length_append]
      show pull.answers u ((answered events).length + 1) = _
      rw [Upstream.answers, ih, tokens_take]
      rfl

def withTokens (s : Stage σ) (tokens : τ) : Stage τ :=
  ⟨s.precedence, tokens, s.yard, s.queue, s.fault, s.done⟩

theorem take_withTokens (s : Stage σ) (answer : Option (Except Fault Token)) (rest : σ)
    (v left : τ) : (s.withTokens v).take answer left = (s.take answer rest).withTokens left := by
  unfold take
  cases answer with
  | none => rfl
  | some item =>
    cases item with
    | error fault => rfl
    | ok t =>
      simp only [withTokens]
      cases s.yard.accept s.precedence t with
      | mk program outcome => cases outcome <;> rfl

/-- Over tokens of which a pull is answered alike, a turn does the same. -/
theorem exists_turn_withTokens (pull : Upstream σ) (pull' : Upstream τ) (s : Stage σ) (v : τ)
    (alike : ∀ answer, (s.turn pull).1 = .ask answer → (pull' v).1 = (pull s.tokens).1) :
    ∃ left, (s.withTokens v).turn pull' = ((s.turn pull).1, (s.turn pull).2.withTokens left) := by
  rcases turn_cases pull s with ⟨i, rest, queue, here⟩ | ⟨fault, queue, raised, here⟩ |
      ⟨queue, clear, done, here⟩ | ⟨queue, clear, running, here⟩
  · refine ⟨v, ?_⟩
    rw [here]
    simp only [turn, deliver?, withTokens, queue]
  · refine ⟨v, ?_⟩
    rw [here]
    simp only [turn, deliver?, withTokens, queue, raised, Option.map_some]
  · refine ⟨v, ?_⟩
    rw [here]
    simp only [turn, deliver?, withTokens, queue, clear, done, Option.map_none, if_true]
  · refine ⟨(pull' v).2, ?_⟩
    have answer := alike _ (congrArg Prod.fst here)
    rw [here, turn_of_idle (s := s.withTokens v) queue clear running, ← take_withTokens s _ _ v,
      ← answer]
    rfl

/-- Streams of which the first pulls are answered alike have the same history up to the next
pull. -/
theorem turns_congr {k : Nat} (alike : (pull.answers u k).1 = (pull'.answers v k).1) (n : Nat)
    (few : (answered (turns pull n (Stage.new p u)).1).length ≤ k) :
    (turns pull' n (Stage.new p v)).1 = (turns pull n (Stage.new p u)).1 ∧
      ∃ left, (turns pull' n (Stage.new p v)).2 =
        (turns pull n (Stage.new p u)).2.withTokens left := by
  induction n with
  | zero => exact ⟨rfl, v, rfl⟩
  | succ n ih =>
    rw [turns_succ, answered_append, List.length_append] at few
    have ⟨same, left, moved⟩ := ih (by omega)
    have asked := answers_turns pull p u n
    have asked' := answers_turns pull' p v n
    rw [same, moved] at asked'
    have next : ∀ answer, ((turns pull n (Stage.new p u)).2.turn pull).1 = .ask answer →
        (pull' left).1 = (pull (turns pull n (Stage.new p u)).2.tokens).1 := by
      intro answer ask
      rw [ask] at few
      have fewer : (answered (turns pull n (Stage.new p u)).1).length < k := few
      have next := Upstream.answer_eq alike fewer
      rw [asked, asked'] at next
      exact next
    obtain ⟨left', step⟩ := exists_turn_withTokens pull pull' _ left next
    rw [turns_succ, turns_succ, same, moved, step]
    exact ⟨rfl, left', rfl⟩

/-- What the first answers determine is handed out once it is ready, and nothing but that. -/
structure Served (answers : List (Option (Except Fault Token))) (events : List Event)
    (s : Stage σ) : Prop where
  queue : s.queue = []
  fault : s.fault = none
  items : none ∉ handed events
  front : ∃ more, answers = answered events ++ more ∧ (s.done = false → more = [])

theorem Served.handed {answers : List (Option (Except Fault Token))} {events : List Event}
    {s : Stage σ} (served : Served answers events s) (told : Told p events s) :
    handed events = (determined p answers).map some := by
  obtain ⟨items, nothings, given, whole, _⟩ := told.items
  obtain ⟨more, rfl, unanswered⟩ := served.front
  have all : determined p (answered events ++ more) = items := by
    have now : items = determined p (answered events) := by
      rw [← whole, served.queue, served.fault]
      exact (List.append_nil items).symm
    cases done : s.done with
    | true => rw [now, determined, told.ended done more, determined]
    | false => rw [now, unanswered done, List.append_nil]
  cases nothings with
  | zero => rw [given, all, List.replicate_zero, List.append_nil]
  | succ count =>
    have nothing : none ∈ Stage.handed events := by
      rw [given, List.replicate_succ]
      exact List.mem_append_right _ List.mem_cons_self
    exact absurd nothing served.items

/-- For one answer more at most one more pull is needed, and the turns that hand out what it
brings. -/
theorem Served.exists_turns {k : Nat} {events : List Event} {s : Stage σ}
    (served : Served (pull.answers u k).1 events s)
    (asked : pull.answers u (answered events).length = (answered events, s.tokens)) :
    ∃ n, Served (pull.answers u (k + 1)).1 (events ++ (turns pull n s).1) (turns pull n s).2 := by
  obtain ⟨more, whole, unanswered⟩ := served.front
  cases done : s.done with
  | true =>
    refine ⟨0, ?_⟩
    rw [turns, List.append_nil, Upstream.answers, whole, List.append_assoc]
    refine ⟨served.queue, served.fault, served.items, _, rfl, fun running => ?_⟩
    rw [done] at running
    cases running
  | false =>
    obtain rfl := unanswered done
    rw [List.append_nil] at whole
    rw [← whole, Upstream.length_answers] at asked
    obtain ⟨n, ready⟩ := exists_turns_ready pull (s.take (pull s.tokens).1 (pull s.tokens).2)
    refine ⟨n + 1, ?_⟩
    rw [turns, turn_of_idle served.queue served.fault done, ready, Upstream.answers, asked]
    refine ⟨rfl, rfl, ?_, [], ?_, fun _ => rfl⟩
    · rw [handed_append, handed_cons_ask, handed_hands]
      intro nothing
      rcases List.mem_append.1 nothing with before | after
      · exact served.items before
      · simp at after
    · rw [answered_append, answered_cons_ask, answered_hands, whole, List.append_nil]

theorem exists_served (pull : Upstream σ) (p : Precedence) (u : σ) (k : Nat) :
    ∃ n, Served (pull.answers u k).1 (turns pull n (Stage.new p u)).1
      (turns pull n (Stage.new p u)).2 := by
  induction k with
  | zero => exact ⟨0, rfl, rfl, nofun, [], rfl, fun _ => rfl⟩
  | succ k ih =>
    obtain ⟨n, served⟩ := ih
    obtain ⟨m, later⟩ := served.exists_turns (answers_turns pull p u n)
    refine ⟨n + m, ?_⟩
    rw [turns_add]
    exact later

/-- All that the first answers determine is handed out, whatever comes after them. -/
theorem exists_turns_determined (pull : Upstream σ) (p : Precedence) (u : σ) (k : Nat) :
    ∃ n, handed (turns pull n (Stage.new p u)).1 =
      (determined p (pull.answers u k).1).map some := by
  obtain ⟨n, served⟩ := exists_served pull p u k
  exact ⟨n, served.handed (told_turns pull p u n)⟩

theorem length_turns (pull : Upstream σ) (n : Nat) (s : Stage σ) :
    (turns pull n s).1.length = n := by
  induction n generalizing s with
  | zero => rfl
  | succ n ih => rw [turns, List.length_cons, ih]

/-- The front of a history is a history, and what comes after it is done by the stage that it
leaves. -/
theorem turns_of_append {n : Nat} {s : Stage σ} {front back : List Event} {event : Event}
    (split : (turns pull n s).1 = front ++ event :: back) :
    (turns pull front.length s).1 = front ∧
      ((turns pull front.length s).2.turn pull).1 = event := by
  have size : front.length + (back.length + 1) = n := by
    rw [← length_turns pull n s, split, List.length_append, List.length_cons]
  rw [← size, turns_add] at split
  have ⟨first, rest⟩ := List.append_inj split (length_turns pull front.length s)
  rw [turns] at rest
  exact ⟨first, (List.cons.inj rest).1⟩

/-- What the history of a fresh stage tells. -/
structure Lazy (p : Precedence) (events : List Event) : Prop where
  /-- First come items that the answers determine, instructions and then at most a fault, and then
  nothing any more. -/
  fused : ∃ items nothings, handed events = items.map some ++ List.replicate nothings none ∧
    items <+: determined p (answered events)
  /-- Before a pull all was handed out that the answers so far determine, and each of these was a
  token that the yard accepted. -/
  demand : ∀ front answer back, events = front ++ .ask answer :: back →
    handed front = (determined p (answered front)).map some ∧
      ∃ tokens y, answered front = tokens.map (fun t => some (.ok t)) ∧
        (Yard.empty.feed p tokens).outcome = .ok y

theorem lazy_turns (pull : Upstream σ) (p : Precedence) (u : σ) (n : Nat) :
    Lazy p (turns pull n (Stage.new p u)).1 := by
  refine ⟨?_, fun front answer back split => ?_⟩
  · obtain ⟨items, nothings, given, whole, _⟩ := (told_turns pull p u n).items
    exact ⟨items, nothings, given, _, whole⟩
  · have ⟨first, ask⟩ := turns_of_append split
    have told := told_turns pull p u front.length
    rw [first] at told
    generalize (turns pull front.length (Stage.new p u)).2 = s at told ask
    rcases turn_cases pull s with ⟨i, rest, _, here⟩ | ⟨fault, _, _, here⟩ | ⟨_, _, _, here⟩ |
        ⟨queue, _, running, _⟩
    · rw [here] at ask
      cases ask
    · rw [here] at ask
      cases ask
    · rw [here] at ask
      cases ask
    · obtain ⟨_, tokens, sent, accepted, passed⟩ := told.running running
      exact ⟨told.handed_of_running queue running, tokens, s.yard, accepted,
        congrArg Yard.Step.outcome passed⟩

end runs

end Stage

end Reckoner
