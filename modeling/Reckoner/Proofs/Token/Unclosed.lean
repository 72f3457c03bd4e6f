import Mathlib.Data.List.Basic
import Mathlib.Data.List.Induction
import Reckoner.Proofs.Token.Demand

set_option autoImplicit false

namespace Reckoner

namespace Enclosure

def opening : Enclosure → Mark
  | group => .openParen
  | call => .openParen
  | array => .openBracket

theorem opening_cases (e : Enclosure) : e.opening = .openParen ∨ e.opening = .openBracket := by
  cases e <;> simp [opening]

def closing : Enclosure → Mark
  | group => .closeParen
  | call => .closeParen
  | array => .closeBracket

def instruction? (parts : Nat) : Enclosure → Option Instruction
  | group => none
  | call => some (.call parts)
  | array => some (.collect parts)

end Enclosure

def Mark.endsOperand : Mark → Bool
  | number _ => true
  | string _ => true
  | word _ => true
  | closeParen => true
  | closeBracket => true
  | _ => false

/-- The places of what is open after a mark at a place, the innermost first. -/
def Mark.openAfter (outer : List Nat) (place : Nat) : Mark → List Nat
  | openParen => place :: outer
  | openBracket => place :: outer
  | closeParen => outer.tail
  | closeBracket => outer.tail
  | _ => outer

theorem Mark.openAfter_of_operand? {m : Mark} {i : Instruction} (asks : m.operand? = some i)
    (outer : List Nat) (place : Nat) : m.openAfter outer place = outer := by
  cases m <;> first | rfl | cases asks

theorem Mark.openAfter_of_opener {m : Mark} (opener : m = .openParen ∨ m = .openBracket)
    (outer : List Nat) (place : Nat) : m.openAfter outer place = place :: outer := by
  rcases opener with rfl | rfl <;> rfl

theorem Mark.mem_openAfter {m : Mark} {outer : List Nat} {place length : Nat}
    (member : place ∈ m.openAfter outer length) :
    place = length ∧ (m = .openParen ∨ m = .openBracket) ∨ place ∈ outer := by
  unfold openAfter at member
  split at member
  · exact (List.mem_cons.1 member).imp_left (⟨·, Or.inl rfl⟩)
  · exact (List.mem_cons.1 member).imp_left (⟨·, Or.inr rfl⟩)
  · exact Or.inr (List.mem_of_mem_tail member)
  · exact Or.inr (List.mem_of_mem_tail member)
  · exact Or.inr member

namespace Token

def isComma (t : Token) : Bool :=
  t.mark? == some (.operator ",")

def latest? (tokens : List Token) : Option Mark :=
  (tokens.filterMap mark?).getLast?

/-- The places of the openers that nothing has closed, the innermost first. -/
def unclosed (tokens : List Token) : List Nat :=
  tokens.zipIdx.foldl (fun outer (t, place) => t.mark?.elim outer (Mark.openAfter outer place)) []

/-- What the token at a place opens, if it is an opener. A `(` calls what ends right before it. -/
def opensAt (tokens : List Token) (place : Nat) : Option Enclosure :=
  tokens[place]?.bind fun t =>
    match t.mark? with
    | some .openBracket => some .array
    | some .openParen =>
      some (if (latest? (tokens.take place)).any Mark.endsOperand then .call else .group)
    | _ => none

def separatesAt (tokens : List Token) (place : Nat) : Bool :=
  (opensAt tokens place).any Enclosure.separates

/-- How many commas have the opener at a place as the innermost one. -/
def commasWithin (tokens : List Token) (opener : Nat) : Nat :=
  (List.range tokens.length).countP fun place =>
    tokens[place]?.any isComma && (unclosed (tokens.take place)).head? == some opener

/-- How many operands or items there are between an opener and the end: none if all is blank, else
one more than the commas. -/
def partsSince (tokens : List Token) (opener : Nat) : Nat :=
  if (tokens.drop (opener + 1)).filterMap mark? = [] then 0 else 1 + commasWithin tokens opener

/-- What a token asks for that closes the innermost opener before it. -/
def enclosing? (before : List Token) (t : Token) : Option Instruction :=
  (unclosed before).head?.bind fun opener =>
    (opensAt before opener).bind fun e =>
      if t.mark? = some e.closing then e.instruction? (partsSince before opener) else none

/-- The calls and the lists that the closers of a stream ask for, in their order. -/
def enclosings (tokens : List Token) : Program :=
  (List.range tokens.length).filterMap fun place =>
    tokens[place]?.bind (enclosing? (tokens.take place))

/-- Tokens that end in an operand and have operators within delimiters only: a number, a string or a
word, a group, an array or a call. -/
structure IsOperand (tokens : List Token) : Prop where
  ends : (latest? tokens).any Mark.endsOperand = true
  within : ∀ (front back : List Token) (t : Token) (symbol : String), tokens = front ++ t :: back →
    t.mark? = some (.operator symbol) → unclosed front ≠ []

variable {tokens : List Token} {t : Token} {place : Nat}

theorem latest?_concat_of_blank (tokens : List Token) (blank : t.mark? = none) :
    latest? (tokens ++ [t]) = latest? tokens := by
  rw [latest?, List.filterMap_append, List.filterMap_cons_none blank, List.filterMap_nil,
    List.append_nil, latest?]

theorem latest?_concat (tokens : List Token) {m : Mark} (marked : t.mark? = some m) :
    latest? (tokens ++ [t]) = some m := by
  rw [latest?, List.filterMap_append, List.filterMap_cons_some marked, List.filterMap_nil,
    List.getLast?_concat]

theorem unclosed_concat_of_blank (tokens : List Token) (blank : t.mark? = none) :
    unclosed (tokens ++ [t]) = unclosed tokens := by
  simp [unclosed, List.zipIdx_append, blank]

theorem unclosed_concat (tokens : List Token) {m : Mark} (marked : t.mark? = some m) :
    unclosed (tokens ++ [t]) = m.openAfter (unclosed tokens) tokens.length := by
  simp [unclosed, List.zipIdx_append, marked]

theorem lt_of_mem_unclosed (member : place ∈ unclosed tokens) : place < tokens.length := by
  induction tokens using List.reverseRecOn with
  | nil => cases member
  | append_singleton tokens t ih =>
    rw [List.length_append, List.length_singleton]
    cases marked : t.mark? with
    | none =>
      rw [unclosed_concat_of_blank tokens marked] at member
      exact Nat.lt_succ_of_lt (ih member)
    | some m =>
      rw [unclosed_concat tokens marked] at member
      rcases Mark.mem_openAfter member with ⟨rfl, _⟩ | earlier
      · exact Nat.lt_succ_self _
      · exact Nat.lt_succ_of_lt (ih earlier)

theorem nodup_unclosed (tokens : List Token) : (unclosed tokens).Nodup := by
  induction tokens using List.reverseRecOn with
  | nil => exact List.nodup_nil
  | append_singleton tokens t ih =>
    have opened : (tokens.length :: unclosed tokens).Nodup :=
      List.nodup_cons.2 ⟨fun member => Nat.lt_irrefl _ (lt_of_mem_unclosed member), ih⟩
    cases marked : t.mark? with
    | none => rwa [unclosed_concat_of_blank tokens marked]
    | some m =>
      rw [unclosed_concat tokens marked]
      unfold Mark.openAfter
      split
      · exact opened
      · exact opened
      · exact ih.tail
      · exact ih.tail
      · exact ih

theorem opensAt_concat_of_lt (inside : place < tokens.length) :
    opensAt (tokens ++ [t]) place = opensAt tokens place := by
  simp only [opensAt, List.getElem?_append_left inside,
    List.take_append_of_le_length (Nat.le_of_lt inside)]

theorem opensAt_length_of_paren (tokens : List Token) (marked : t.mark? = some .openParen) :
    opensAt (tokens ++ [t]) tokens.length =
      some (if (latest? tokens).any Mark.endsOperand then .call else .group) := by
  rw [opensAt, List.getElem?_concat_length, List.take_left, Option.bind_some, marked]

theorem opensAt_length_of_bracket (tokens : List Token) (marked : t.mark? = some .openBracket) :
    opensAt (tokens ++ [t]) tokens.length = some .array := by
  rw [opensAt, List.getElem?_concat_length, List.take_left, Option.bind_some, marked]

theorem opening_of_opensAt_length {m : Mark} {e : Enclosure} (marked : t.mark? = some m)
    (opener : m = .openParen ∨ m = .openBracket)
    (opens : opensAt (tokens ++ [t]) tokens.length = some e) : e.opening = m := by
  rcases opener with rfl | rfl
  · rw [opensAt_length_of_paren tokens marked] at opens
    obtain rfl := Option.some.inj opens
    split <;> rfl
  · rw [opensAt_length_of_bracket tokens marked] at opens
    obtain rfl := Option.some.inj opens
    rfl

theorem isComma_iff {symbol : String} (marked : t.mark? = some (.operator symbol)) :
    t.isComma = true ↔ symbol = "," := by
  rw [isComma, marked, beq_iff_eq, Option.some.injEq, Mark.operator.injEq]

theorem not_isComma {m : Mark} (marked : t.mark? = some m) (other : m ≠ .operator ",") :
    ¬ t.isComma = true := by
  rw [isComma, marked, beq_iff_eq, Option.some.injEq]
  exact other

theorem commasWithin_concat (tokens : List Token) (t : Token) (opener : Nat) :
    commasWithin (tokens ++ [t]) opener = commasWithin tokens opener +
      if t.isComma ∧ (unclosed tokens).head? = some opener then 1 else 0 := by
  have earlier : ∀ place ∈ List.range tokens.length,
      (((tokens ++ [t])[place]?.any isComma &&
        (unclosed ((tokens ++ [t]).take place)).head? == some opener) = true ↔
      (tokens[place]?.any isComma &&
        (unclosed (tokens.take place)).head? == some opener) = true) := by
    intro place member
    have inside := List.mem_range.1 member
    rw [List.getElem?_append_left inside, List.take_append_of_le_length (Nat.le_of_lt inside)]
  rw [commasWithin, List.length_append, List.length_singleton, List.range_succ, List.countP_append,
    List.countP_congr earlier, ← commasWithin]
  simp

/-- No comma stands within what opens later. -/
theorem commasWithin_length (tokens : List Token) : commasWithin tokens tokens.length = 0 := by
  rw [commasWithin, List.countP_eq_zero]
  intro place member within
  have inside := List.mem_range.1 member
  simp only [Bool.and_eq_true, beq_iff_eq] at within
  have before := lt_of_mem_unclosed (List.mem_of_mem_head? within.2)
  rw [List.length_take] at before
  omega

theorem enclosings_concat (tokens : List Token) (t : Token) :
    enclosings (tokens ++ [t]) = enclosings tokens ++ (enclosing? tokens t).toList := by
  have here : (tokens ++ [t])[tokens.length]?.bind
      (enclosing? ((tokens ++ [t]).take tokens.length)) = enclosing? tokens t := by
    rw [List.getElem?_concat_length, List.take_left]
    rfl
  rw [enclosings, List.length_append, List.length_singleton, List.range_succ,
    List.filterMap_append]
  congr 1
  · refine List.filterMap_congr fun place member => ?_
    have inside := List.mem_range.1 member
    rw [List.getElem?_append_left inside, List.take_append_of_le_length (Nat.le_of_lt inside)]
  · cases asked : enclosing? tokens t with
    | none => exact List.filterMap_cons_none (here.trans asked)
    | some i => exact List.filterMap_cons_some (here.trans asked)

theorem enclosing?_eq_none (tokens : List Token)
    (other : ∀ e : Enclosure, t.mark? ≠ some e.closing) : enclosing? tokens t = none := by
  rw [enclosing?, Option.bind_eq_none_iff]
  intro place _
  rw [Option.bind_eq_none_iff]
  intro e _
  exact if_neg (other e)

/-- The innermost opener is the latest token that is not blank just when all after it is blank. -/
theorem latest?_eq_opening_iff {e : Enclosure} (innermost : (unclosed tokens).head? = some place)
    (opens : opensAt tokens place = some e) :
    latest? tokens = some e.opening ↔ (tokens.drop (place + 1)).filterMap mark? = [] := by
  -- From the end: a blank changes neither side, and any other token settles both.
  induction tokens using List.reverseRecOn with
  | nil => cases innermost
  | append_singleton tokens t ih =>
    cases marked : t.mark? with
    | none =>
      rw [unclosed_concat_of_blank tokens marked] at innermost
      have inside := lt_of_mem_unclosed (List.mem_of_mem_head? innermost)
      rw [opensAt_concat_of_lt inside] at opens
      rw [latest?_concat_of_blank tokens marked, ih innermost opens,
        List.drop_append_of_le_length inside, List.filterMap_append,
        List.filterMap_cons_none marked, List.filterMap_nil, List.append_nil]
    | some m =>
      rw [unclosed_concat tokens marked] at innermost
      rw [latest?_concat tokens marked, Option.some.injEq]
      rcases Mark.mem_openAfter (List.mem_of_mem_head? innermost) with ⟨rfl, opener⟩ | earlier
      · have nothing : (tokens ++ [t]).drop (tokens.length + 1) = [] :=
          List.drop_eq_nil_of_le (Nat.le_of_eq List.length_append)
        rw [nothing]
        exact iff_of_true (opening_of_opensAt_length marked opener opens).symm rfl
      · have inside := lt_of_mem_unclosed earlier
        have other : m ≠ e.opening := by
          rintro rfl
          rw [Mark.openAfter_of_opener e.opening_cases] at innermost
          exact Nat.ne_of_gt inside (Option.some.inj innermost)
        have solid : [t].filterMap mark? ≠ [] := by
          rw [List.filterMap_cons_some marked]
          exact List.cons_ne_nil _ _
        rw [List.drop_append_of_le_length inside, List.filterMap_append]
        exact iff_of_false other fun nothing => solid (List.append_eq_nil_iff.1 nothing).2

end Token

end Reckoner
