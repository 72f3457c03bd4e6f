import Reckoner.Proofs.Machine.Faults

set_option autoImplicit false

namespace Reckoner

namespace Yard

variable {p q : Precedence} {known : String → Prop} {y next : Yard} {start : Nat} {m : Mark}

/-- What waits after a step waited before it, or is the operator that the step has taken in. -/
theorem Move.waiting_cases {s : Step} (move : Move p y start m s) (passed : s.outcome = .ok next)
    {i : Instruction} (member : i ∈ waiting next.stack) :
    i ∈ waiting y.stack ∨ ∃ symbol arity, m = .operator symbol ∧ i = .apply symbol arity := by
  have flushed {j : Instruction} (left : j ∈ waiting (flush y.stack).2) : j ∈ waiting y.stack := by
    rw [← flush_append_waiting]
    exact List.mem_append_right _ left
  have closed {entry : Entry} {rest : List Entry} (front : (flush y.stack).2 = entry :: rest)
      (left : i ∈ waiting rest) : i ∈ waiting y.stack := by
    apply flushed
    rw [front, waiting, List.mem_filterMap]
    obtain ⟨other, within, sent⟩ := List.mem_filterMap.1 left
    exact ⟨other, List.mem_cons_of_mem entry within, sent⟩
  cases move with
  | operand asks =>
    obtain rfl := Except.ok.inj passed
    exact .inl member
  | separate counted =>
    obtain rfl := Except.ok.inj passed
    rw [waiting_countOne] at member
    exact .inl (flushed member)
  | overtake plain after top =>
    obtain rfl := Except.ok.inj passed
    rcases List.mem_cons.1 member with rfl | waited
    · exact .inr ⟨_, _, rfl, rfl⟩
    · rw [top]
      exact .inl (List.mem_cons_of_mem _ waited)
  | join plain =>
    obtain rfl := Except.ok.inj passed
    rcases List.mem_cons.1 member with rfl | waited
    · exact .inr ⟨_, _, rfl, rfl⟩
    · exact .inl waited
  | openGroup before =>
    obtain rfl := Except.ok.inj passed
    exact .inl member
  | openCall after =>
    obtain rfl := Except.ok.inj passed
    exact .inl member
  | openArray =>
    obtain rfl := Except.ok.inj passed
    exact .inl member
  | closeGroup front =>
    obtain rfl := Except.ok.inj passed
    exact .inl (closed front member)
  | closeCall front =>
    obtain rfl := Except.ok.inj passed
    exact .inl (closed front member)
  | closeArray front =>
    obtain rfl := Except.ok.inj passed
    exact .inl (closed front member)
  | failParen => cases passed
  | failBracket => cases passed

def AllKnown (known : String → Prop) (y : Yard) : Prop :=
  ∀ symbol arity, .apply symbol arity ∈ waiting y.stack → known symbol

/-- Whether two precedences let the same ones of the known operators go first. -/
def Agree (known : String → Prop) (p q : Precedence) : Prop :=
  ∀ first second, known first → known second → p.goesFirst first second = q.goesFirst first second

theorem AllKnown.empty : empty.AllKnown known := by
  intro symbol arity member
  cases member

/-- Operators come to wait only with their tokens. -/
theorem AllKnown.accept {t : Token} (all : y.AllKnown known)
    (here : ∀ symbol, t.mark? = some (.operator symbol) → known symbol)
    (passed : (y.accept p t).outcome = .ok next) : next.AllKnown known := by
  intro symbol arity member
  cases marked : t.mark? with
  | none =>
    rw [accept_of_blank marked] at passed
    obtain rfl := Except.ok.inj passed
    exact all symbol arity member
  | some m =>
    rcases (move_accept marked).waiting_cases passed member with waited | ⟨s, n, rfl, same⟩
    · exact all symbol arity waited
    · obtain ⟨rfl, rfl⟩ := Instruction.apply.inj same
      exact here symbol marked

theorem placeBinary_congr (agree : Agree known p q) (all : y.AllKnown known) {symbol : String}
    (here : known symbol) : placeBinary p symbol y.stack = placeBinary q symbol y.stack := by
  cases top : y.stack with
  | nil => rfl
  | cons entry rest =>
    cases entry with
    | operator other arity =>
      have waits : .apply other arity ∈ waiting y.stack := by
        rw [top]
        exact List.mem_cons_self
      simp only [placeBinary, agree other symbol (all other arity waits) here]
    | _ => rfl

/-- A yard asks a precedence only of known operators, if none but these are in it and come in. -/
theorem accept_congr {t : Token} (agree : Agree known p q) (all : y.AllKnown known)
    (here : ∀ symbol, t.mark? = some (.operator symbol) → known symbol) :
    y.accept p t = y.accept q t := by
  cases marked : t.mark? with
  | none => rw [accept_of_blank marked, accept_of_blank marked]
  | some m =>
    rw [accept_of_mark marked, accept_of_mark marked]
    cases m with
    | operator symbol =>
      simp only [acceptMark, acceptOperator, placeBinary_congr agree all (here symbol marked)]
    | _ => rfl

theorem run_congr {items : List (Except Fault Token)} (agree : Agree known p q)
    (all : y.AllKnown known)
    (here : ∀ t, .ok t ∈ items → ∀ symbol, t.mark? = some (.operator symbol) → known symbol) :
    y.run p items = y.run q items := by
  induction items generalizing y with
  | nil => rfl
  | cons item rest ih =>
    cases item with
    | error fault => rfl
    | ok t =>
      have known' := here t List.mem_cons_self
      have later : ∀ u, .ok u ∈ rest → ∀ symbol, u.mark? = some (.operator symbol) → known symbol :=
        fun u member => here u (List.mem_cons_of_mem _ member)
      have same := accept_congr agree all known'
      cases step : y.accept p t with
      | mk sent outcome =>
        have step' : y.accept q t = ⟨sent, outcome⟩ := same.symm.trans step
        cases outcome with
        | error fault => rw [run_cons_of_error step, run_cons_of_error step']
        | ok next =>
          have next' : next.AllKnown known := all.accept (p := p) known' (by rw [step])
          rw [run_cons_of_ok step, run_cons_of_ok step', ih next' later]

end Yard

namespace Machine

variable {φ : Type} [Host φ] {c d : Config φ}

/-- Whether the symbol or the name of an instruction stands for the same under both configurations. -/
def ServedAlike (c d : Config φ) : Instruction → Prop
  | .apply symbol arity =>
    (c.operator? symbol).isSome = (d.operator? symbol).isSome ∧
      (c.operator? symbol).bind (·.implementation? arity) =
        (d.operator? symbol).bind (·.implementation? arity)
  | .load name => c.bound? name = d.bound? name
  | _ => True

theorem step_congr (m : Machine φ) {i : Instruction} (served : ServedAlike c d i) :
    m.step c i = m.step d i := by
  cases i with
  | apply symbol arity =>
    obtain ⟨present, same⟩ := served
    cases known : c.operator? symbol with
    | none =>
      have known' : d.operator? symbol = none := by simpa [known] using present.symm
      rw [step_apply_unknown m arity known, step_apply_unknown m arity known']
    | some o =>
      obtain ⟨o', known'⟩ : ∃ o', d.operator? symbol = some o' := by
        rw [← Option.isSome_iff_exists, ← present, known]
        rfl
      rw [known, known', Option.bind_some, Option.bind_some] at same
      cases supported : o.implementation? arity with
      | none =>
        rw [step_apply_unsupported m known supported,
          step_apply_unsupported m known' (same.symm.trans supported)]
      | some f =>
        rw [step_apply m known supported, step_apply m known' (same.symm.trans supported)]
  | load name =>
    have same : c.bound? name = d.bound? name := served
    rw [step_load, step_load, same]
  | _ => rfl

theorem runProgram_congr (m : Machine φ) {program : Program}
    (served : ∀ i ∈ program, ServedAlike c d i) :
    m.runProgram c program = m.runProgram d program := by
  induction program generalizing m with
  | nil => rfl
  | cons i rest ih =>
    have others := fun next : Machine φ => ih next fun j member =>
      served j (List.mem_cons_of_mem i member)
    simp only [runProgram, step_congr m (served i List.mem_cons_self), others]

end Machine

namespace Config

variable {φ : Type} {c d : Config φ}

/-- Whether two configurations have the same symbols and classes and put the symbols in the same
order of levels, however the levels are numbered. -/
structure ReadsAs (c d : Config φ) : Prop where
  operators : ∀ s, s ∈ c.operators ↔ s ∈ d.operators
  classes : c.classes = d.classes
  rightAssociative : ∀ s ∈ c.operators,
    c.precedence.isRightAssociative s = d.precedence.isRightAssociative s
  ranked : ∀ s ∈ c.operators,
    (c.precedence.level? s).isSome = (d.precedence.level? s).isSome
  order : ∀ s ∈ c.operators, ∀ t ∈ c.operators, ∀ m n m' n',
    c.precedence.level? s = some m → c.precedence.level? t = some n →
    d.precedence.level? s = some m' → d.precedence.level? t = some n' → (n ≤ m ↔ n' ≤ m')

/-- The symbols are tried in an order that they determine themselves. -/
theorem symbols_congr (same : ∀ s, s ∈ c.operators ↔ s ∈ d.operators) : c.symbols = d.symbols :=
  symbols_eq (fun s => by rw [mem_symbols, same s]) d.pairwise_symbols

theorem ReadsAs.lexicon (alike : c.ReadsAs d) : c.lexicon = d.lexicon := by
  rw [Config.lexicon, Config.lexicon, symbols_congr alike.operators, alike.classes]

theorem ReadsAs.agree (alike : c.ReadsAs d) :
    Yard.Agree (· ∈ c.operators) c.precedence d.precedence := by
  intro first second known known'
  have ranked := alike.ranked first known
  have ranked' := alike.ranked second known'
  have right := alike.rightAssociative second known'
  unfold Precedence.goesFirst
  cases level : c.precedence.level? first with
  | none =>
    rw [level, Option.isSome_none, eq_comm, Option.isSome_eq_false_iff, Option.isNone_iff_eq_none]
      at ranked
    rw [ranked]
  | some m =>
    rw [level, Option.isSome_some, eq_comm, Option.isSome_iff_exists] at ranked
    obtain ⟨m', level'⟩ := ranked
    cases other : c.precedence.level? second with
    | none =>
      rw [other, Option.isSome_none, eq_comm, Option.isSome_eq_false_iff,
        Option.isNone_iff_eq_none] at ranked'
      rw [level', ranked']
    | some n =>
      rw [other, Option.isSome_some, eq_comm, Option.isSome_iff_exists] at ranked'
      obtain ⟨n', other'⟩ := ranked'
      have atLeast := alike.order first known second known' m n m' n' level other level' other'
      have below := alike.order second known' first known n m n' m' other level other' level'
      simp only [level', other', right]
      split <;> rw [decide_eq_decide] <;> omega

/-- What is made of the tokens of a source, where all operators among them are known and two
precedences agree on these. -/
theorem items_congr {source : String} {known : String → Prop}
    (tokens : Source.items (c.tokens source) = Source.items (d.tokens source))
    (agree : Yard.Agree known c.precedence d.precedence)
    (operators : ∀ t, .ok t ∈ Source.items (c.tokens source) → t.kind = .operator → known t.raw) :
    Source.items (c.instructions (c.tokens source)) =
      Source.items (d.instructions (d.tokens source)) := by
  have same := Yard.run_congr agree .empty fun t member symbol marked => by
    obtain ⟨kind, rfl⟩ := Token.mark?_eq_operator_iff.1 marked
    exact operators t member kind
  calc Source.items (c.instructions (c.tokens source))
    _ = (Yard.empty.run c.precedence (Source.items (c.tokens source))).1.stream
        (Yard.empty.run c.precedence (Source.items (c.tokens source))).2 :=
      Stage.items_new c.precedence (c.tokens source)
    _ = (Yard.empty.run d.precedence (Source.items (d.tokens source))).1.stream
        (Yard.empty.run d.precedence (Source.items (d.tokens source))).2 := by
      rw [same, tokens]
    _ = Source.items (d.instructions (d.tokens source)) :=
      (Stage.items_new d.precedence (d.tokens source)).symm

theorem ReadsAs.items (alike : c.ReadsAs d) (source : String) :
    Source.items (c.instructions (c.tokens source)) =
      Source.items (d.instructions (d.tokens source)) := by
  have tokens : c.tokens source = d.tokens source := by
    rw [Config.tokens, Config.tokens, alike.lexicon]
  exact items_congr (congrArg Source.items tokens) alike.agree fun t member kind =>
    (known_of_mem_tokens member kind).2

/-- Two configurations with the same symbols and classes and the same order of levels make the same
of every source, whatever their operators do, whatever is bound and however the levels are numbered.
And two configurations under which the symbols and names of a program stand for the same make the
same of that program, whatever else they say. -/
theorem compile_run_congr [Host φ] (c d : Config φ) :
    (c.ReadsAs d → ∀ source,
      Source.items (c.instructions (c.tokens source)) =
        Source.items (d.instructions (d.tokens source)) ∧
      c.compile source = d.compile source) ∧
    ∀ program : Program, (∀ i ∈ program, Machine.ServedAlike c d i) →
      c.run program = d.run program := by
  refine ⟨fun alike source => ?_, fun program served => ?_⟩
  · have items := alike.items source
    exact ⟨items, congrArg (List.mapM id) items⟩
  · exact congrArg (Except.map Machine.finish) (Machine.runProgram_congr .empty served)

/-- Other numbers in the same order and another function for `*` change nothing in how a source is
read, and a program that asks for neither `*` nor `x` is worth the same with them. -/
theorem compile_run_congr_renumbered :
    let host : Host Unit := ⟨fun _ operands => return .list operands⟩
    let left : Operator Unit := .binary fun a _ => return a
    let right : Operator Unit := .binary fun _ b => return b
    let c : Config Unit := .build [.operators (.ofList [("+", left), ("*", left)]),
      .levels (.ofList [("+", (1 : Int)), ("*", 2)])]
    let d : Config Unit := .build [.operators (.ofList [("*", right), ("+", left.withUnary pure)]),
      .levels (.ofList [("*", (70 : Int)), ("+", -5), ("?", 9)]), .bind "x" (.bool true)]
    let program : Program := [.load "y", .push (.text "a"), .apply "+" 2]
    (c.ReadsAs d ∧ ∀ i ∈ program, Machine.ServedAlike c d i) ∧
      c.compile "x+2*3" = d.compile "x+2*3" ∧ c.run program = d.run program := by
  intro host left right c d program
  have symbols (s : String) : s ∈ c.operators ↔ s = "+" ∨ s = "*" := by
    change s ∈ Std.TreeMap.ofList _ ↔ _
    simp [Std.TreeMap.mem_ofList]
  have symbols' (s : String) : s ∈ d.operators ↔ s = "*" ∨ s = "+" := by
    change s ∈ Std.TreeMap.ofList _ ↔ _
    simp [Std.TreeMap.mem_ofList]
  have alike : c.ReadsAs d := by
    refine ⟨fun s => ?_, rfl, fun s _ => rfl, fun s known => ?_, fun s known t known' => ?_⟩
    · rw [symbols, symbols', or_comm]
    · rcases (symbols s).1 known with rfl | rfl <;> rfl
    · rcases (symbols s).1 known with rfl | rfl <;> rcases (symbols t).1 known' with rfl | rfl <;>
        · rintro _ _ _ _ ⟨⟩ ⟨⟩ ⟨⟩ ⟨⟩
          decide
  have served : ∀ i ∈ program, Machine.ServedAlike c d i := by
    simp only [program, List.forall_mem_cons, List.not_mem_nil, false_implies, implies_true,
      and_true]
    exact ⟨rfl, trivial, rfl, rfl⟩
  obtain ⟨reads, works⟩ := compile_run_congr c d
  exact ⟨⟨alike, served⟩, (reads alike _).2, works program served⟩

end Config

end Reckoner
