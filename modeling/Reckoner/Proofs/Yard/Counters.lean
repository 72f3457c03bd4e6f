import Reckoner.Proofs.Token.Unclosed
import Reckoner.Proofs.Yard.Conservation
import Reckoner.Proofs.Yard.Split

set_option autoImplicit false

/-!
What an opener has counted is what stands within it.

After any tokens the openers on the stack of a yard are those that nothing has closed, and each call
and each array among them has counted the commas that have it as the innermost opener. So what a
closer sends is told by the tokens between the two delimiters alone.
-/

namespace Reckoner

theorem Mark.endsOperand_kind (m : Mark) : m.kind.endsOperand = m.endsOperand := by
  cases m <;> rfl

def Instruction.encloses (i : Instruction) : Bool :=
  i.enclosure?.isSome

def Token.startAt (tokens : List Token) (place : Nat) : Nat :=
  tokens[place]?.elim 0 Token.start

def Token.markerAt (tokens : List Token) (place : Nat) : Yard.Marker :=
  if opensAt tokens place = some .array then .array (startAt tokens place)
  else .call (startAt tokens place)

namespace Yard

namespace Entry

def isOpener (entry : Entry) : Bool :=
  entry.enclosure?.isSome

/-- The opener of an enclosure. A group has no use for a count. -/
def ofEnclosure (start count : Nat) : Enclosure → Entry
  | .group => .group start
  | .call => .call start count
  | .array => .array start count

def countOne : Entry → Entry
  | .call start count => .call start (count + 1)
  | .array start count => .array start (count + 1)
  | entry => entry

@[simp] theorem enclosure?_ofEnclosure (start count : Nat) (e : Enclosure) :
    (ofEnclosure start count e).enclosure? = some e := by
  cases e <;> rfl

@[simp] theorem countOne_ofEnclosure (start count : Nat) (e : Enclosure) :
    (ofEnclosure start count e).countOne = ofEnclosure start (count + 1) e := by
  cases e <;> rfl

end Entry

def opened (stack : List Entry) : List Entry :=
  stack.filter Entry.isOpener

@[simp] theorem opened_flush (stack : List Entry) : opened (flush stack).2 = opened stack := by
  rw [opened, opened, ← List.filterMap_eq_filter]
  exact filterMap_flush (fun _ _ => rfl) stack

theorem opened_countOne_flush {stack : List Entry} (counted : separates stack = true) :
    opened (countOne (flush stack).2) = (opened stack).modifyHead Entry.countOne := by
  induction stack with
  | nil => cases counted
  | cons entry rest ih =>
    cases entry with
    | operator symbol arity => exact ih counted
    | group start => cases counted
    | call start count => rfl
    | array start count => rfl

theorem map_enclosure?_opened (stack : List Entry) :
    (opened stack).map Entry.enclosure? = (enclosures stack).map some := by
  induction stack with
  | nil => rfl
  | cons entry rest ih =>
    cases entry with
    | operator symbol arity => exact ih
    | group start => exact congrArg (some Enclosure.group :: ·) ih
    | call start count => exact congrArg (some Enclosure.call :: ·) ih
    | array start count => exact congrArg (some Enclosure.array :: ·) ih

/-- The opener at a place of a stream as a yard has to keep it: with one more than the commas that
have it as the innermost. -/
def openerAt (tokens : List Token) (place : Nat) : Option Entry :=
  (Token.opensAt tokens place).map
    (Entry.ofEnclosure (Token.startAt tokens place) (1 + Token.commasWithin tokens place))

variable {p : Precedence} {y next : Yard} {tokens : List Token} {t : Token} {m : Mark} {place : Nat}

theorem bind_enclosure?_openerAt (tokens : List Token) (place : Nat) :
    (openerAt tokens place).bind Entry.enclosure? = Token.opensAt tokens place := by
  unfold openerAt
  cases Token.opensAt tokens place with
  | none => rfl
  | some e => exact Entry.enclosure?_ofEnclosure _ _ e

theorem openerAt_concat (t : Token) (inside : place < tokens.length) :
    openerAt (tokens ++ [t]) place =
      if t.isComma ∧ (Token.unclosed tokens).head? = some place then
        (openerAt tokens place).map Entry.countOne
      else openerAt tokens place := by
  rw [openerAt, openerAt, Token.startAt, List.getElem?_append_left inside, ← Token.startAt,
    Token.opensAt_concat_of_lt inside, Token.commasWithin_concat]
  split
  · cases Token.opensAt tokens place with
    | none => rfl
    | some e =>
      rw [Option.map_some, Option.map_some, Option.map_some, Entry.countOne_ofEnclosure]
      rfl
  · rfl

/-- The openers on the stack are those that nothing has closed, with what they have counted, and the
latest token is known by its kind. -/
structure Counts (y : Yard) (tokens : List Token) : Prop where
  last : y.last = (Token.latest? tokens).map Mark.kind
  openers : (opened y.stack).map some = (Token.unclosed tokens).map (openerAt tokens)

theorem counts_empty : empty.Counts [] := ⟨rfl, rfl⟩

theorem Counts.enclosed (counts : y.Counts tokens) :
    (enclosures y.stack).map some = (Token.unclosed tokens).map (Token.opensAt tokens) := by
  have openers := congrArg (List.map (·.bind Entry.enclosure?)) counts.openers
  rw [List.map_map, List.map_map] at openers
  rw [← map_enclosure?_opened]
  refine openers.trans (List.map_congr_left fun place _ => ?_)
  exact bind_enclosure?_openerAt tokens place

/-- A comma separates just where the innermost opener that nothing has closed is a call or an array.
-/
theorem Counts.separates (counts : y.Counts tokens) :
    Yard.separates y.stack = (Token.unclosed tokens).head?.any (Token.separatesAt tokens) := by
  have innermost := congrArg List.head? counts.enclosed
  rw [List.head?_map, List.head?_map] at innermost
  calc Yard.separates y.stack
    _ = (enclosures y.stack).head?.any Enclosure.separates := separates_eq y.stack
    _ = ((enclosures y.stack).head?.map some).any (·.any Enclosure.separates) := by
      cases (enclosures y.stack).head? <;> rfl
    _ = ((Token.unclosed tokens).head?.map (Token.opensAt tokens)).any
        (·.any Enclosure.separates) := by rw [innermost]
    _ = (Token.unclosed tokens).head?.any (Token.separatesAt tokens) := by
      cases (Token.unclosed tokens).head? <;> rfl

theorem Counts.separates_eq_false_iff (counts : y.Counts tokens) :
    Yard.separates y.stack = false ↔
      ∀ place ∈ (Token.unclosed tokens).head?, Token.opensAt tokens place = some .group := by
  have innermost := congrArg List.head? counts.enclosed
  rw [List.head?_map, List.head?_map] at innermost
  rw [separates_eq]
  cases first : (Token.unclosed tokens).head? with
  | none =>
    rw [first, Option.map_none, Option.map_eq_none_iff] at innermost
    rw [innermost]
    simp
  | some place =>
    rw [first, Option.map_some, Option.map_eq_some_iff] at innermost
    obtain ⟨e, found, opens⟩ := innermost
    rw [found]
    cases e <;> simp [← opens, Enclosure.separates]

theorem Counts.kept (counts : y.Counts tokens)
    (plain : ¬ (t.isComma ∧ Yard.separates y.stack = true)) :
    (opened y.stack).map some = (Token.unclosed tokens).map (openerAt (tokens ++ [t])) := by
  rw [counts.openers]
  refine List.map_congr_left fun place member => ?_
  rw [openerAt_concat t (Token.lt_of_mem_unclosed member)]
  split
  · next within =>
    -- The comma is directly within a group, and a group keeps no count.
    rw [counts.separates, within.2, Option.any_some] at plain
    have group : Token.separatesAt tokens place = false := by
      simpa [within.1] using plain
    unfold openerAt
    unfold Token.separatesAt at group
    cases opens : Token.opensAt tokens place with
    | none => rfl
    | some e =>
      rw [opens] at group
      cases e with
      | group => rfl
      | call => cases group
      | array => cases group
  · rfl

theorem map_openerAt_concat_of_comma (comma : t.isComma = true) :
    (Token.unclosed tokens).map (openerAt (tokens ++ [t])) =
      ((Token.unclosed tokens).map (openerAt tokens)).modifyHead (Option.map Entry.countOne) := by
  have inside (place : Nat) (member : place ∈ Token.unclosed tokens) : place < tokens.length :=
    Token.lt_of_mem_unclosed member
  -- No place is open twice, so that only the one on top can be the innermost opener.
  have distinct := Token.nodup_unclosed tokens
  have within (place : Nat) (member : place ∈ Token.unclosed tokens) :=
    openerAt_concat t (inside place member)
  cases unclosed : Token.unclosed tokens with
  | nil => rfl
  | cons innermost outer =>
    rw [unclosed] at distinct within
    obtain ⟨other, _⟩ := List.nodup_cons.1 distinct
    rw [List.map_cons, List.map_cons, List.modifyHead_cons]
    congr 1
    · rw [within innermost List.mem_cons_self, if_pos ⟨comma, rfl⟩]
    · refine List.map_congr_left fun place member => ?_
      rw [within place (List.mem_cons_of_mem _ member), if_neg]
      rintro ⟨_, same⟩
      obtain rfl := Option.some.inj same
      exact other member

/-- A `(` calls just where the latest token that is not blank ends an operand. -/
theorem Counts.afterOperand (counts : y.Counts tokens) :
    y.afterOperand = (Token.latest? tokens).any Mark.endsOperand := by
  rw [Yard.afterOperand, counts.last]
  cases Token.latest? tokens with
  | none => rfl
  | some m => exact m.endsOperand_kind

/-- What a closer finds at the front of a flushed stack is the innermost opener. -/
theorem Counts.front {entry : Entry} {rest : List Entry} (counts : y.Counts tokens)
    (front : (flush y.stack).2 = entry :: rest) (opener : entry.isOpener = true) :
    ∃ place, (Token.unclosed tokens).head? = some place ∧ openerAt tokens place = some entry := by
  have innermost := congrArg List.head? counts.openers
  rw [← opened_flush, front, opened, List.filter_cons_of_pos opener, List.map_cons,
    List.head?_cons, List.head?_map, eq_comm, Option.map_eq_some_iff] at innermost
  exact innermost

theorem openerAt_length {e : Enclosure}
    (opens : Token.opensAt (tokens ++ [t]) tokens.length = some e) :
    openerAt (tokens ++ [t]) tokens.length = some (Entry.ofEnclosure t.start 1 e) := by
  have outside : (Token.unclosed tokens).head? ≠ some tokens.length := fun innermost =>
    Nat.lt_irrefl _ (Token.lt_of_mem_unclosed (List.mem_of_mem_head? innermost))
  rw [openerAt, opens, Token.startAt, List.getElem?_concat_length, Token.commasWithin_concat,
    Token.commasWithin_length, if_neg fun within => outside within.2]
  rfl

theorem Counts.opens {e : Enclosure} (counts : y.Counts tokens) (marked : t.mark? = some m)
    (opener : m = .openParen ∨ m = .openBracket)
    (opens : Token.opensAt (tokens ++ [t]) tokens.length = some e) :
    (opened (Entry.ofEnclosure t.start 1 e :: y.stack)).map some =
      (Token.unclosed (tokens ++ [t])).map (openerAt (tokens ++ [t])) := by
  have other : m ≠ .operator "," := by
    rcases opener with rfl | rfl <;> exact Mark.noConfusion
  rw [Token.unclosed_concat tokens marked, Mark.openAfter_of_opener opener, List.map_cons,
    openerAt_length opens, ← counts.kept fun within => Token.not_isComma marked other within.1]
  cases e <;> rfl

theorem Counts.closes {entry : Entry} {rest : List Entry} (counts : y.Counts tokens)
    (marked : t.mark? = some m) (closer : m = .closeParen ∨ m = .closeBracket)
    (front : (flush y.stack).2 = entry :: rest) (opener : entry.isOpener = true) :
    (opened rest).map some = (Token.unclosed (tokens ++ [t])).map (openerAt (tokens ++ [t])) := by
  have other : m ≠ .operator "," := by
    rcases closer with rfl | rfl <;> exact Mark.noConfusion
  have kept := counts.kept fun within => Token.not_isComma marked other within.1
  have closed : m.openAfter (Token.unclosed tokens) tokens.length =
      (Token.unclosed tokens).tail := by
    rcases closer with rfl | rfl <;> rfl
  rw [← opened_flush, front, opened, List.filter_cons_of_pos opener] at kept
  rw [Token.unclosed_concat tokens marked, closed, List.map_tail, ← kept]
  rfl

/-- A step without a fault counts what its token does. -/
theorem Move.counts {s : Step} (move : Move p y t.start m s) (marked : t.mark? = some m)
    (counts : y.Counts tokens) (passed : s.outcome = .ok next) : next.Counts (tokens ++ [t]) := by
  constructor
  · rw [move.last passed, Token.latest?_concat tokens marked]
    rfl
  cases move with
  | operand asks =>
    obtain rfl := Except.ok.inj passed
    have other : m ≠ .operator "," := by
      rintro rfl
      cases asks
    rw [Token.unclosed_concat tokens marked, Mark.openAfter_of_operand? asks]
    exact counts.kept fun within => Token.not_isComma marked other within.1
  | separate counted =>
    obtain rfl := Except.ok.inj passed
    have comma := (Token.isComma_iff marked).2 rfl
    rw [Token.unclosed_concat tokens marked]
    simp only [Mark.openAfter]
    rw [map_openerAt_concat_of_comma comma, ← counts.openers, opened_countOne_flush counted]
    cases opened y.stack <;> rfl
  | overtake plain after top =>
    obtain rfl := Except.ok.inj passed
    rw [← Token.isComma_iff marked] at plain
    have kept := counts.kept plain
    rw [top] at kept
    rw [Token.unclosed_concat tokens marked]
    exact kept
  | join plain =>
    obtain rfl := Except.ok.inj passed
    rw [← Token.isComma_iff marked] at plain
    rw [Token.unclosed_concat tokens marked]
    exact counts.kept plain
  | openGroup before =>
    obtain rfl := Except.ok.inj passed
    have opens := Token.opensAt_length_of_paren tokens marked
    rw [← counts.afterOperand, before] at opens
    exact counts.opens marked (Or.inl rfl) opens
  | openCall after =>
    obtain rfl := Except.ok.inj passed
    have opens := Token.opensAt_length_of_paren tokens marked
    rw [← counts.afterOperand, after] at opens
    exact counts.opens marked (Or.inl rfl) opens
  | openArray =>
    obtain rfl := Except.ok.inj passed
    exact counts.opens marked (Or.inr rfl) (Token.opensAt_length_of_bracket tokens marked)
  | closeGroup front =>
    obtain rfl := Except.ok.inj passed
    exact counts.closes marked (Or.inl rfl) front rfl
  | closeCall front =>
    obtain rfl := Except.ok.inj passed
    exact counts.closes marked (Or.inl rfl) front rfl
  | closeArray front =>
    obtain rfl := Except.ok.inj passed
    exact counts.closes marked (Or.inr rfl) front rfl
  | failParen => cases passed
  | failBracket => cases passed

/-- The parts within the innermost opener, as a closer tells them by the latest token. -/
theorem Counts.partsSince {e : Enclosure} (counts : y.Counts tokens)
    (innermost : (Token.unclosed tokens).head? = some place)
    (opens : Token.opensAt tokens place = some e) :
    Token.partsSince tokens place =
      if y.last = some e.opening.kind then 0 else 1 + Token.commasWithin tokens place := by
  have latest : y.last = some e.opening.kind ↔ Token.latest? tokens = some e.opening := by
    rw [counts.last]
    cases Token.latest? tokens with
    | none => simp
    | some m =>
      rw [Option.map_some, Option.some.injEq, Option.some.injEq]
      cases e <;> cases m <;> simp [Enclosure.opening, Mark.kind]
  rw [Token.partsSince]
  simp only [latest, Token.latest?_eq_opening_iff innermost opens]

/-- A closer asks for what it finds at the front of the flushed stack, if it closes that. -/
theorem Counts.enclosing? (counts : y.Counts tokens) (t : Token) (e : Enclosure)
    (start count : Nat) {rest : List Entry}
    (front : (flush y.stack).2 = Entry.ofEnclosure start count e :: rest) :
    Token.enclosing? tokens t = if t.mark? = some e.closing then
      e.instruction? (if y.last = some e.opening.kind then 0 else count) else none := by
  have opener : (Entry.ofEnclosure start count e).isOpener = true := by
    rw [Entry.isOpener, Entry.enclosure?_ofEnclosure]
    rfl
  obtain ⟨place, innermost, kept⟩ := counts.front front opener
  have opens : Token.opensAt tokens place = some e := by
    rw [← bind_enclosure?_openerAt, kept, Option.bind_some, Entry.enclosure?_ofEnclosure]
  rw [Token.enclosing?, innermost, Option.bind_some, opens, Option.bind_some,
    counts.partsSince innermost opens]
  rw [openerAt, opens, Option.map_some, Option.some.injEq] at kept
  cases e with
  | group => rfl
  | call =>
    obtain ⟨_, rfl⟩ := Entry.call.inj kept
    rfl
  | array =>
    obtain ⟨_, rfl⟩ := Entry.array.inj kept
    rfl

theorem Counts.enclosing?_eq_none (counts : y.Counts tokens) (front : (flush y.stack).2 = []) :
    Token.enclosing? tokens t = none := by
  have nothing := counts.openers
  rw [← opened_flush, front] at nothing
  rw [Token.enclosing?, List.map_eq_nil_iff.1 nothing.symm]
  rfl

@[simp] theorem filter_encloses_flush (stack : List Entry) :
    (flush stack).1.filter Instruction.encloses = [] :=
  filter_fst_flush (fun _ _ => rfl) stack

theorem filter_encloses_of_operand? {i : Instruction} (asks : m.operand? = some i) :
    [i].filter Instruction.encloses = [] := by
  have operand := Mark.isOperand_of_operand? asks
  cases i with
  | push l => rfl
  | load s => rfl
  | _ => cases operand

/-- A step sends the call or the list that its token asks for, if it closes one, and no other. -/
theorem Move.filter_encloses {s : Step} (move : Move p y t.start m s) (marked : t.mark? = some m)
    (counts : y.Counts tokens) :
    s.program.filter Instruction.encloses = (Token.enclosing? tokens t).toList := by
  have nothing (noParen : m ≠ .closeParen) (noBracket : m ≠ .closeBracket) :
      (Token.enclosing? tokens t).toList = [] := by
    rw [Token.enclosing?_eq_none tokens]
    · rfl
    · intro e
      rw [marked]
      cases e <;> simpa [Enclosure.closing]
  cases move with
  | operand asks =>
    rw [nothing (by rintro rfl; cases asks) (by rintro rfl; cases asks)]
    exact filter_encloses_of_operand? asks
  | separate counted =>
    rw [nothing Mark.noConfusion Mark.noConfusion]
    exact filter_encloses_flush y.stack
  | overtake plain after top =>
    rw [nothing Mark.noConfusion Mark.noConfusion]
    rfl
  | join plain =>
    rw [nothing Mark.noConfusion Mark.noConfusion]
    rfl
  | openGroup before =>
    rw [nothing Mark.noConfusion Mark.noConfusion]
    rfl
  | openCall after =>
    rw [nothing Mark.noConfusion Mark.noConfusion]
    rfl
  | openArray =>
    rw [nothing Mark.noConfusion Mark.noConfusion]
    rfl
  | @closeGroup opened rest front =>
    rw [(counts.enclosing? t .group opened 0 front).trans (if_pos marked)]
    exact filter_encloses_flush y.stack
  | @closeCall opened count rest front =>
    rw [(counts.enclosing? t .call opened count front).trans (if_pos marked)]
    simp only [proceed, List.filter_append, filter_encloses_flush]
    rfl
  | @closeArray opened count rest front =>
    rw [(counts.enclosing? t .array opened count front).trans (if_pos marked)]
    simp only [proceed, List.filter_append, filter_encloses_flush]
    rfl
  | failParen fault noGroup noCall =>
    rw [filter_encloses_flush]
    rcases flush_cases y.stack with front | ⟨start, rest, front⟩ | ⟨start, count, rest, front⟩ |
        ⟨start, count, rest, front⟩
    · rw [counts.enclosing?_eq_none front]
      rfl
    · exact absurd front (noGroup start rest)
    · exact absurd front (noCall start count rest)
    · rw [counts.enclosing? t .array start count front, marked, if_neg (by decide)]
      rfl
  | failBracket fault noArray =>
    rw [filter_encloses_flush]
    rcases flush_cases y.stack with front | ⟨start, rest, front⟩ | ⟨start, count, rest, front⟩ |
        ⟨start, count, rest, front⟩
    · rw [counts.enclosing?_eq_none front]
      rfl
    · rw [counts.enclosing? t .group start 0 front, marked, if_neg (by decide)]
      rfl
    · rw [counts.enclosing? t .call start count front, marked, if_neg (by decide)]
      rfl
    · exact absurd front (noArray start count rest)

theorem Counts.blank (counts : y.Counts tokens) (unmarked : t.mark? = none) :
    y.Counts (tokens ++ [t]) := by
  constructor
  · rw [Token.latest?_concat_of_blank tokens unmarked, counts.last]
  · have solid : ¬ t.isComma = true := by
      rw [Token.isComma, unmarked]
      exact Bool.false_ne_true
    rw [Token.unclosed_concat_of_blank tokens unmarked]
    exact counts.kept fun within => solid within.1

/-- A token without a fault keeps the counts right, and asks for what it sends of calls and lists.
-/
theorem Counts.accept (counts : y.Counts tokens) (p : Precedence) (t : Token) :
    (∀ next, (y.accept p t).outcome = .ok next → next.Counts (tokens ++ [t])) ∧
      (y.accept p t).program.filter Instruction.encloses =
        (Token.enclosing? tokens t).toList := by
  cases marked : t.mark? with
  | none =>
    rw [accept_of_blank marked]
    constructor
    · intro next passed
      obtain rfl := Except.ok.inj passed
      exact counts.blank marked
    · rw [Token.enclosing?_eq_none tokens fun e => marked ▸ (Option.some_ne_none _).symm]
      rfl
  | some m =>
    have move := move_accept (p := p) (y := y) marked
    exact ⟨fun next passed => move.counts marked counts passed, move.filter_encloses marked counts⟩

theorem Counts.feed {later : List Token} {program : Program} (counts : y.Counts tokens)
    (passed : y.feed p later = ⟨program, .ok next⟩) : next.Counts (tokens ++ later) := by
  induction later generalizing y tokens program with
  | nil =>
    obtain rfl := Except.ok.inj (congrArg Step.outcome passed)
    rwa [List.append_nil]
  | cons t rest ih =>
    obtain ⟨sent, between, _, step, remaining, _⟩ := exists_of_feed_cons passed
    rw [← List.singleton_append, ← List.append_assoc]
    exact ih ((counts.accept p t).1 between (by rw [step])) remaining

/-- The calls and the lists that a run sends are those that the tokens it takes in ask for. -/
theorem Course.filter_encloses {items : List (Except Fault Token)} {later : List Token}
    {program : Program} {fault : Option Fault} (course : Course p y items later program fault)
    (counts : y.Counts tokens) :
    Token.enclosings tokens ++ program.filter Instruction.encloses =
      Token.enclosings (tokens ++ later) := by
  induction course generalizing tokens with
  | ends y => rw [filter_encloses_flush, List.append_nil, List.append_nil]
  | stops y fault rest => rw [List.filter_nil, List.append_nil, List.append_nil]
  | @fails y t sent fault step rest =>
    obtain ⟨_, asked⟩ := counts.accept p t
    rw [step] at asked
    rw [Token.enclosings_concat, asked]
  | @passes y next t sent later fault rest others step course ih =>
    obtain ⟨kept, asked⟩ := counts.accept p t
    rw [step] at kept asked
    have further := ih (kept next rfl)
    rw [Token.enclosings_concat, List.append_assoc, List.append_assoc] at further
    rw [List.filter_append, asked]
    exact further

/-- What a stack keeps for its calls and arrays, told by the places that they were opened at. -/
theorem Counts.filterMap_counted {α : Type} (counts : y.Counts tokens) {g : Entry → Option α}
    {f : Nat → α} (operators : ∀ symbol arity, g (.operator symbol arity) = none)
    (same : ∀ place, (openerAt tokens place).bind g =
      if Token.separatesAt tokens place then some (f place) else none) :
    y.stack.filterMap g =
      ((Token.unclosed tokens).filter (Token.separatesAt tokens)).map f := by
  have kept : (opened y.stack).filterMap g = y.stack.filterMap g := by
    rw [opened, List.filterMap_filter]
    refine List.filterMap_congr fun entry _ => ?_
    cases entry with
    | operator symbol arity => exact (operators symbol arity).symm
    | group start => rfl
    | call start count => rfl
    | array start count => rfl
  calc y.stack.filterMap g
    _ = ((opened y.stack).map some).filterMap (·.bind g) := by rw [← kept, List.filterMap_map]; rfl
    _ = (Token.unclosed tokens).filterMap fun place => (openerAt tokens place).bind g := by
      rw [counts.openers, List.filterMap_map]
      rfl
    _ = (Token.unclosed tokens).filterMap fun place =>
        if Token.separatesAt tokens place then (some ∘ f) place else none :=
      List.filterMap_congr fun place _ => same place
    _ = ((Token.unclosed tokens).filter (Token.separatesAt tokens)).map f := by
      rw [← List.filterMap_filter, List.filterMap_eq_map]

/-- The counters hold one more than the commas directly within what each of them is for. -/
theorem Counts.counters (counts : y.Counts tokens) :
    Yard.counters y.stack = ((Token.unclosed tokens).filter (Token.separatesAt tokens)).map
      (1 + Token.commasWithin tokens ·) := by
  refine counts.filterMap_counted (fun symbol arity => rfl) fun place => ?_
  rw [openerAt, Token.separatesAt]
  cases Token.opensAt tokens place with
  | none => rfl
  | some e => cases e <;> rfl

theorem filter_isCounted_markers (stack : List Entry) :
    (markers stack).filter Marker.isCounted =
      stack.filterMap fun entry => entry.counter?.map fun _ => entry.marker := by
  induction stack with
  | nil => rfl
  | cons entry rest ih =>
    cases entry with
    | operator symbol arity => exact ih
    | group start => exact ih
    | call start count => exact congrArg (Marker.call start :: ·) ih
    | array start count => exact congrArg (Marker.array start :: ·) ih

theorem Counts.markers (counts : y.Counts tokens) :
    (Yard.markers y.stack).filter Marker.isCounted =
      ((Token.unclosed tokens).filter (Token.separatesAt tokens)).map (Token.markerAt tokens) := by
  rw [filter_isCounted_markers]
  refine counts.filterMap_counted (fun symbol arity => rfl) fun place => ?_
  rw [openerAt, Token.separatesAt, Token.markerAt]
  cases Token.opensAt tokens place with
  | none => rfl
  | some e => cases e <;> rfl

/-- What an operator does that does not separate. -/
def placeOperator (p : Precedence) (y : Yard) (symbol : String) : Step :=
  if y.afterOperand then placeBinary p symbol y.stack
  else proceed .operator [] (.operator symbol 1 :: y.stack)

theorem countOne_flush_ne (stack rest : List Entry) (symbol : String) (arity : Nat) :
    Yard.countOne (flush stack).2 ≠ .operator symbol arity :: rest := by
  rcases flush_cases stack with front | ⟨start, rest, front⟩ | ⟨start, count, rest, front⟩ |
      ⟨start, count, rest, front⟩ <;> rw [front] <;> simp [Yard.countOne]

theorem exists_placeOperator (p : Precedence) (y : Yard) (symbol : String) :
    ∃ program arity rest,
      placeOperator p y symbol = proceed .operator program (.operator symbol arity :: rest) := by
  unfold placeOperator
  split
  · unfold placeBinary
    split
    · split <;> exact ⟨_, _, _, rfl⟩
    · exact ⟨_, _, _, rfl⟩
  · exact ⟨_, _, _, rfl⟩

/-- An operator is placed unless it is a comma and the innermost opener is a call or an array. -/
theorem acceptOperator_eq_iff (p : Precedence) (y : Yard) (symbol : String) :
    acceptOperator p y symbol = placeOperator p y symbol ↔
      (symbol = "," → separates y.stack = false) := by
  by_cases counted : symbol = "," ∧ separates y.stack = true
  · obtain ⟨rfl, counted⟩ := counted
    obtain ⟨program, arity, rest, placed⟩ := exists_placeOperator p y ","
    rw [acceptOperator, if_pos ⟨rfl, counted⟩, placed]
    refine iff_of_false (fun same => ?_) (fun plain => ?_)
    · exact countOne_flush_ne y.stack rest "," arity (congrArg Step.stack same)
    · exact Bool.false_ne_true ((plain rfl).symm.trans counted)
  · refine iff_of_true (if_neg counted) fun comma => ?_
    exact Bool.eq_false_iff.2 fun separates => counted ⟨comma, separates⟩

end Yard

/-- The calls and the lists that are made of a stream are those that its closers ask for, each with
none where all is blank between the delimiters and else with one more than the commas directly
within. In every yard that tokens lead to, a counter of its own would hold that number for each call
and each array, whatever a missing counter counted as; and a comma is an operator like the others
just where the innermost opener is a group or there is none. -/
theorem Config.items_count {φ σ : Type} [Source σ (Except Fault Token)] (config : Config φ)
    (source : σ) :
    (∃ (program : Program) (fault : Option Fault),
      Source.items (config.instructions source) = program.stream fault ∧
      program.filter Instruction.encloses =
        Token.enclosings (Yard.empty.taken config.precedence (Source.items source))) ∧
    ∀ (tokens : List Token) (program : Program) (y : Yard),
      Yard.empty.feed config.precedence tokens = ⟨program, .ok y⟩ →
      let counting := (Token.unclosed tokens).filter (Token.separatesAt tokens)
      (∀ fallback, Yard.Split.empty.feed fallback config.precedence tokens =
        ⟨program, .ok y.split⟩) ∧
      y.split.markers.filter Yard.Marker.isCounted = counting.map (Token.markerAt tokens) ∧
      y.split.counters = counting.map (1 + Token.commasWithin tokens ·) ∧
      ∀ (t : Token) (symbol : String), t.mark? = some (.operator symbol) →
        (y.accept config.precedence t = y.placeOperator config.precedence symbol ↔
          (symbol = "," →
            ∀ place ∈ (Token.unclosed tokens).head?, Token.opensAt tokens place = some .group)) := by
  constructor
  · have course := Yard.course_run config.precedence .empty (Source.items source)
    have sent := course.filter_encloses Yard.counts_empty
    exact ⟨_, _, Stage.items_new config.precedence source, sent⟩
  · intro tokens program y reached
    have counts : y.Counts tokens := Yard.counts_empty.feed reached
    refine ⟨fun fallback => ?_, counts.markers, counts.counters, fun t symbol marked => ?_⟩
    · have same := Yard.split_feed fallback config.precedence .empty tokens
      rw [reached] at same
      exact same
    · rw [Yard.accept_of_mark marked, ← counts.separates_eq_false_iff]
      exact Yard.acceptOperator_eq_iff config.precedence y symbol

/-- In `f(a, [b, (c, d), e` the array has counted three items and the call two operands: the comma
in the group is an operator. -/
theorem Config.items_count_unclosed :
    let tokens : List Token :=
      [⟨.word, "f", 0⟩, ⟨.openParen, "(", 1⟩, ⟨.word, "a", 2⟩, ⟨.operator, ",", 3⟩,
       ⟨.openBracket, "[", 5⟩, ⟨.word, "b", 6⟩, ⟨.operator, ",", 7⟩, ⟨.openParen, "(", 9⟩,
       ⟨.word, "c", 10⟩, ⟨.operator, ",", 11⟩, ⟨.word, "d", 13⟩, ⟨.closeParen, ")", 14⟩,
       ⟨.operator, ",", 15⟩, ⟨.word, "e", 17⟩]
    let program : Program :=
      [.load "f", .load "a", .load "b", .load "c", .load "d", .apply "," 2, .load "e"]
    ∃ y : Yard,
      Yard.empty.feed (Config.standard : Config Unit).precedence tokens = ⟨program, .ok y⟩ ∧
      y.split.markers.filter Yard.Marker.isCounted = [.array 5, .call 1] ∧
      y.split.counters = [3, 2] := by
  intro tokens program
  have reached : Yard.empty.feed (Config.standard : Config Unit).precedence tokens =
      ⟨program, .ok ⟨[.array 5 3, .call 1 2], some .word⟩⟩ := by rfl
  have ⟨_, markers, counters, _⟩ :=
    (Config.items_count (Config.standard : Config Unit)
      (tokens.map (.ok : Token → Except Fault Token))).2 tokens program _ reached
  have counting : (Token.unclosed tokens).filter (Token.separatesAt tokens) = [4, 1] := by decide
  rw [counting] at markers counters
  exact ⟨_, reached, markers.trans (by decide), counters.trans (by decide)⟩

end Reckoner
