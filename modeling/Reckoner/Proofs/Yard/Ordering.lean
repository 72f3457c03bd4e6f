import Reckoner.Evaluation
import Reckoner.Proofs.Yard.Feed
import Reckoner.Yard.Stream

set_option autoImplicit false

namespace Reckoner

namespace Waiting

/-- The operators that wait, as a yard keeps them. -/
def operators : Waiting → List (String × Nat)
  | nothing => []
  | unary symbol => [(symbol, 1)]
  | binary _ symbol => [(symbol, 2)]

/-- What has been sent of the operands of the waiting operator. -/
def gathered : Waiting → Program
  | nothing => []
  | unary _ => []
  | binary left _ => left.program

theorem program_complete (w : Waiting) (t : Tree) :
    (w.complete t).program = w.gathered ++ t.program ++ Yard.applications w.operators := by
  cases w with
  | nothing => simp [complete, gathered, operators]
  | unary symbol => simp [complete, gathered, operators, Tree.program, Tree.programs,
      Yard.applications]
  | binary left symbol => simp [complete, gathered, operators, Tree.program, Tree.programs,
      Yard.applications]

end Waiting

namespace Yard

variable {p : Precedence} {y : Yard} {tokens : List Token} {base : List Entry}

/-- The tokens end in an operand and leave operators above `base`; what was sent before, what they
send and those operators make up `whole`. -/
def Gathers (p : Precedence) (y : Yard) (tokens : List Token) (base : List Entry)
    (sent whole : Program) : Prop :=
  ∃ program waiting kind, kind.endsOperand = true ∧
    y.feed p tokens = ⟨program, .ok ⟨entries waiting ++ base, some kind⟩⟩ ∧
    sent ++ program ++ applications waiting = whole

/-- An operator other than a separating comma is taken in by what came before it. -/
theorem feed_operator {symbol : String} (plain : ¬ (symbol = "," ∧ separates y.stack))
    (spelled : tokens.filterMap Token.mark? = [.operator symbol]) :
    y.feed p tokens =
      if y.afterOperand then placeBinary p symbol y.stack
      else proceed .operator [] (.operator symbol 1 :: y.stack) := by
  obtain ⟨start, one⟩ := exists_feed_of_mark spelled
  rw [one]
  simp only [acceptMark, acceptOperator, if_neg plain]

theorem acceptOperator_comma {waiting : List (String × Nat)} {last : Option TokenKind}
    (floor : flush base = ([], base)) (counted : separates base = true) :
    acceptOperator p ⟨entries waiting ++ base, last⟩ "," =
      proceed .operator (applications waiting) (countOne base) := by
  rw [acceptOperator, if_pos (by simp [counted])]
  simp only [flush_entries waiting floor]

theorem placeBinary_operator (p : Precedence) (symbol waiting : String) (arity : Nat) :
    placeBinary p symbol (.operator waiting arity :: base) =
      if p.Outranks waiting symbol then
        proceed .operator [.apply waiting arity] (.operator symbol 2 :: base)
      else proceed .operator [] (.operator symbol 2 :: .operator waiting arity :: base) := by
  simp only [placeBinary, Precedence.goesFirst_iff]

/-- A binary operator sends the waiting operator on its way if that one is early. -/
theorem placeBinary_waiting {w : Waiting} {symbol : String}
    (floor : w = .nothing → flush base = ([], base)) :
    placeBinary p symbol (entries w.operators ++ base) =
      if w.IsEarly p symbol then
        proceed .operator (applications w.operators) (.operator symbol 2 :: base)
      else proceed .operator [] (.operator symbol 2 :: (entries w.operators ++ base)) := by
  cases w with
  | nothing =>
    have noOperator := floor rfl
    cases base with
    | nil => rfl
    | cons entry rest =>
      cases entry with
      | operator waiting arity => simp [flush] at noOperator
      | group start => rfl
      | call start count => rfl
      | array start count => rfl
  | unary waiting => exact placeBinary_operator p symbol waiting 1
  | binary left waiting => exact placeBinary_operator p symbol waiting 2

theorem plain_of_commasFit {symbol : String} (fits : (!(separates base && symbol == ",")) = true)
    (waiting : List (String × Nat)) :
    ¬ (symbol = "," ∧ separates (entries waiting ++ base)) := by
  rintro ⟨rfl, counted⟩
  simp_all

/-- An opener that counts the commas directly within it. -/
inductive Counting : (Nat → Entry) → Prop
  | call (start : Nat) : Counting (.call start)
  | array (start : Nat) : Counting (.array start)

theorem Counting.flush {opener : Nat → Entry} (counting : Counting opener) (count : Nat)
    (rest : List Entry) : Yard.flush (opener count :: rest) = ([], opener count :: rest) := by
  cases counting <;> rfl

theorem Counting.separates {opener : Nat → Entry} (counting : Counting opener) (count : Nat)
    (rest : List Entry) : Yard.separates (opener count :: rest) = true := by
  cases counting <;> rfl

theorem Counting.countOne {opener : Nat → Entry} (counting : Counting opener) (count : Nat)
    (rest : List Entry) :
    Yard.countOne (opener count :: rest) = opener (count + 1) :: rest := by
  cases counting <;> rfl

/-- An operator before its operand is the waiting one of what follows. -/
theorem Gathers.unary {w : Waiting} {symbol : String} {last : Option TokenKind}
    {front rest : List Token} {whole : Tree}
    (before : last.any TokenKind.endsOperand = false)
    (plain : ¬ (symbol = "," ∧ separates (entries w.operators ++ base)))
    (spelled : front.filterMap Token.mark? = [.operator symbol])
    (remaining : Gathers p ⟨.operator symbol 1 :: (entries w.operators ++ base), some .operator⟩
      rest (entries w.operators ++ base) [] whole.program) :
    Gathers p ⟨entries w.operators ++ base, last⟩ (front ++ rest) base w.gathered
      (w.complete whole).program := by
  obtain ⟨program, waiting, kind, operand, passed, total⟩ := remaining
  have step : feed p ⟨entries w.operators ++ base, last⟩ front =
      ⟨[], .ok ⟨.operator symbol 1 :: (entries w.operators ++ base), some .operator⟩⟩ := by
    rw [feed_operator plain spelled, afterOperand, before]
    rfl
  refine ⟨program, waiting ++ w.operators, kind, operand, ?_, ?_⟩
  · rw [feed_append step passed, entries_append, List.append_assoc]
    rfl
  · rw [Waiting.program_complete, ← total, applications_append]
    simp only [List.nil_append, List.append_assoc]

/-- An operator between two atoms sends the waiting one on its way if that is early. -/
theorem feed_between {w : Waiting} {symbol : String} {kind : TokenKind}
    (floor : w = .nothing → flush base = ([], base))
    (plain : ¬ (symbol = "," ∧ separates (entries w.operators ++ base)))
    (operand : kind.endsOperand = true)
    (spelled : tokens.filterMap Token.mark? = [.operator symbol]) :
    feed p ⟨entries w.operators ++ base, some kind⟩ tokens =
      if w.IsEarly p symbol then
        proceed .operator (applications w.operators) (.operator symbol 2 :: base)
      else proceed .operator [] (.operator symbol 2 :: (entries w.operators ++ base)) := by
  rw [feed_operator plain spelled, afterOperand, Option.any_some, operand, if_pos rfl]
  exact placeBinary_waiting floor

/-- A late operator keeps waiting below the operator between two atoms. -/
theorem Gathers.late {w : Waiting} {left whole : Tree} {symbol : String} {kind : TokenKind}
    {last : Option TokenKind} {atom front rest : List Token}
    (first : feed p ⟨entries w.operators ++ base, last⟩ atom =
      ⟨left.program, .ok ⟨entries w.operators ++ base, some kind⟩⟩)
    (second : feed p ⟨entries w.operators ++ base, some kind⟩ front =
      proceed .operator [] (.operator symbol 2 :: (entries w.operators ++ base)))
    (remaining : Gathers p ⟨.operator symbol 2 :: (entries w.operators ++ base), some .operator⟩
      rest (entries w.operators ++ base) left.program whole.program) :
    Gathers p ⟨entries w.operators ++ base, last⟩ (atom ++ (front ++ rest)) base w.gathered
      (w.complete whole).program := by
  obtain ⟨program, waiting, kind, operand, passed, total⟩ := remaining
  refine ⟨left.program ++ program, waiting ++ w.operators, kind, operand, ?_, ?_⟩
  · rw [feed_append first (feed_append second passed), entries_append, List.append_assoc]
    rfl
  · rw [Waiting.program_complete, ← total, applications_append]
    simp only [List.append_assoc]

/-- An early operator is sent with the one atom before the operator that lets it go first. -/
theorem Gathers.early {w : Waiting} {left : Tree} {symbol : String} {kind : TokenKind}
    {last : Option TokenKind} {atom front rest : List Token} {whole : Program}
    (first : feed p ⟨entries w.operators ++ base, last⟩ atom =
      ⟨left.program, .ok ⟨entries w.operators ++ base, some kind⟩⟩)
    (second : feed p ⟨entries w.operators ++ base, some kind⟩ front =
      proceed .operator (applications w.operators) (.operator symbol 2 :: base))
    (remaining : Gathers p ⟨.operator symbol 2 :: base, some .operator⟩ rest base
      (w.complete left).program whole) :
    Gathers p ⟨entries w.operators ++ base, last⟩ (atom ++ (front ++ rest)) base w.gathered
      whole := by
  obtain ⟨program, waiting, kind, operand, passed, total⟩ := remaining
  refine ⟨left.program ++ (applications w.operators ++ program), waiting, kind, operand, ?_, ?_⟩
  · exact feed_append first (feed_append second passed)
  · rw [← total, Waiting.program_complete]
    simp only [List.append_assoc]

theorem feed_group {inner closer : List Token} {start : Nat} {last : Option TokenKind}
    {whole : Program} (spelled : closer.filterMap Token.mark? = [.closeParen])
    (gathers : Gathers p ⟨.group start :: base, last⟩ inner (.group start :: base) [] whole) :
    feed p ⟨.group start :: base, last⟩ (inner ++ closer) =
      ⟨whole, .ok ⟨base, some .closeParen⟩⟩ := by
  obtain ⟨program, waiting, kind, operand, passed, total⟩ := gathers
  obtain ⟨place, one⟩ := exists_feed_of_mark spelled
  have closed : feed p ⟨entries waiting ++ .group start :: base, some kind⟩ closer =
      ⟨applications waiting, .ok ⟨base, some .closeParen⟩⟩ := by
    have flushed := flush_entries waiting (rfl : flush (.group start :: base) = _)
    rw [one]
    simp only [acceptMark, closeParen, flushed]
    rfl
  rw [feed_append passed closed, ← total, List.nil_append]

/-- A separating comma sends all that waits in its context, and is counted. -/
theorem Gathers.comma {last : Option TokenKind} {front comma rest : List Token}
    {after : List Entry} {first second : Program} (floor : flush base = ([], base))
    (counted : Yard.separates base = true)
    (spelled : comma.filterMap Token.mark? = [.operator ","])
    (gathers : Gathers p ⟨base, last⟩ front base [] first)
    (remaining : Gathers p ⟨Yard.countOne base, some .operator⟩ rest after [] second) :
    Gathers p ⟨base, last⟩ (front ++ (comma ++ rest)) after [] (first ++ second) := by
  obtain ⟨program, waiting, kind, operand, passed, total⟩ := gathers
  obtain ⟨later, waitingLater, last, ends, passedLater, totalLater⟩ := remaining
  obtain ⟨start, one⟩ := exists_feed_of_mark spelled
  have step : feed p ⟨entries waiting ++ base, some kind⟩ comma =
      ⟨applications waiting, .ok ⟨Yard.countOne base, some .operator⟩⟩ := by
    rw [one]
    exact acceptOperator_comma floor counted
  refine ⟨program ++ (applications waiting ++ later), waitingLater, last, ends, ?_, ?_⟩
  · exact feed_append passed (feed_append step passedLater)
  · rw [← total, ← totalLater]
    simp only [List.nil_append, List.append_assoc]

/-- What the operands of a call or the items of an array leave for the closer: how many it will
count, and the operators that wait for it. -/
def Collects (p : Precedence) (opener : Nat → Entry) (openKind : TokenKind) (base : List Entry)
    (tokens : List Token) (size : Nat) (whole : Program) : Prop :=
  ∃ program waiting count kind,
    feed p ⟨opener 1 :: base, some openKind⟩ tokens =
      ⟨program, .ok ⟨entries waiting ++ opener count :: base, some kind⟩⟩ ∧
    (if some kind = some openKind then 0 else count) = size ∧
    program ++ applications waiting = whole

theorem Collects.of_separated {opener : Nat → Entry} {openKind : TokenKind} {es : List Phrase}
    (opens : openKind.endsOperand = false)
    (spelled : tokens.filterMap Token.mark? = Phrase.separated es)
    (gathers : es ≠ [] → Gathers p ⟨opener 1 :: base, some openKind⟩ tokens
      (opener es.length :: base) [] (Tree.programs (Phrase.trees p es))) :
    Collects p opener openKind base tokens es.length (Tree.programs (Phrase.trees p es)) := by
  cases es with
  | nil => exact ⟨[], [], 1, openKind, feed_blank spelled p _, if_pos rfl, rfl⟩
  | cons e rest =>
    obtain ⟨program, waiting, kind, operand, passed, total⟩ := gathers (List.cons_ne_nil e rest)
    refine ⟨program, waiting, _, kind, passed, if_neg ?_, total⟩
    intro same
    rw [Option.some.inj same, opens] at operand
    cases operand

theorem Collects.call {start size : Nat} {closer : List Token} {whole : Program}
    (spelled : closer.filterMap Token.mark? = [.closeParen])
    (collects : Collects p (.call start) .openParen base tokens size whole) :
    feed p ⟨.call start 1 :: base, some .openParen⟩ (tokens ++ closer) =
      ⟨whole ++ [.call size], .ok ⟨base, some .closeParen⟩⟩ := by
  obtain ⟨program, waiting, count, kind, passed, rfl, rfl⟩ := collects
  obtain ⟨place, one⟩ := exists_feed_of_mark spelled
  have flushed := flush_entries waiting (rfl : flush (.call start count :: base) = _)
  rw [feed_append_of_ok passed, one]
  simp only [acceptMark, closeParen, flushed, proceed, List.append_assoc]

theorem Collects.array {start size : Nat} {closer : List Token} {whole : Program}
    (spelled : closer.filterMap Token.mark? = [.closeBracket])
    (collects : Collects p (.array start) .openBracket base tokens size whole) :
    feed p ⟨.array start 1 :: base, some .openBracket⟩ (tokens ++ closer) =
      ⟨whole ++ [.collect size], .ok ⟨base, some .closeBracket⟩⟩ := by
  obtain ⟨program, waiting, count, kind, passed, rfl, rfl⟩ := collects
  obtain ⟨place, one⟩ := exists_feed_of_mark spelled
  have flushed := flush_entries waiting (rfl : flush (.array start count :: base) = _)
  rw [feed_append_of_ok passed, one]
  simp only [acceptMark, closeBracket, flushed, proceed, List.append_assoc]

mutual

/-- The tokens of an atom send its program and leave the stack as it was. -/
theorem feed_atom (p : Precedence) (a : Atom) {tokens : List Token} {stack : List Entry}
    {last : Option TokenKind} (fits : a.commasFit = true)
    (spelled : tokens.filterMap Token.mark? = a.marks)
    (before : last.any TokenKind.endsOperand = false) :
    ∃ kind, kind.endsOperand = true ∧
      feed p ⟨stack, last⟩ tokens = ⟨(a.tree p).program, .ok ⟨stack, some kind⟩⟩ := by
  cases a with
  | number raw =>
    obtain ⟨start, one⟩ := exists_feed_of_mark spelled
    exact ⟨.number, rfl, one p _⟩
  | string raw =>
    obtain ⟨start, one⟩ := exists_feed_of_mark spelled
    exact ⟨.string, rfl, one p _⟩
  | word raw =>
    obtain ⟨start, one⟩ := exists_feed_of_mark spelled
    exact ⟨.word, rfl, one p _⟩
  | group inner =>
    obtain ⟨opening, middle, closing, rfl, opens, within, closes⟩ :=
      Token.exists_of_marks_enclosed spelled
    obtain ⟨start, one⟩ := exists_feed_of_mark opens
    have opened : feed p ⟨stack, last⟩ opening =
        ⟨[], .ok ⟨.group start :: stack, some .openParen⟩⟩ := by
      rw [one]
      simp only [acceptMark, afterOperand, before]
      rfl
    have gathers : Gathers p ⟨.group start :: stack, some .openParen⟩ middle
        (.group start :: stack) [] (inner.tree p .nothing).program :=
      feed_phrase p inner .nothing fits within rfl fun _ => rfl
    exact ⟨.closeParen, rfl, feed_append opened (feed_group closes gathers)⟩
  | array items =>
    obtain ⟨opening, middle, closing, rfl, opens, within, closes⟩ :=
      Token.exists_of_marks_enclosed spelled
    obtain ⟨start, one⟩ := exists_feed_of_mark opens
    have collects : Collects p (.array start) .openBracket stack middle items.length
        (Tree.programs (Phrase.trees p items)) :=
      .of_separated rfl within fun nonempty =>
        feed_separated p items (.array start) nonempty (Nat.add_comm 1 _) rfl fits within
    refine ⟨.closeBracket, rfl, ?_⟩
    rw [feed_append (one p _) (collects.array closes), Atom.tree, Tree.program,
      Phrase.length_trees]
    rfl
  | call callee operands =>
    simp only [Atom.commasFit, Bool.and_eq_true] at fits
    obtain ⟨front, others, rfl, called, enclosed⟩ := List.filterMap_eq_append_iff.1 spelled
    obtain ⟨opening, middle, closing, rfl, opens, within, closes⟩ :=
      Token.exists_of_marks_enclosed enclosed
    have calleeFirst : ∃ kind, kind.endsOperand = true ∧ feed p ⟨stack, last⟩ front =
        ⟨(callee.tree p).program, .ok ⟨stack, some kind⟩⟩ :=
      feed_atom p callee fits.1 called before
    obtain ⟨kind, operand, first⟩ := calleeFirst
    obtain ⟨start, one⟩ := exists_feed_of_mark opens
    have opened : feed p ⟨stack, some kind⟩ opening =
        ⟨[], .ok ⟨.call start 1 :: stack, some .openParen⟩⟩ := by
      rw [one]
      simp only [acceptMark, afterOperand, Option.any_some, operand]
      rfl
    have collects : Collects p (.call start) .openParen stack middle operands.length
        (Tree.programs (Phrase.trees p operands)) :=
      .of_separated rfl within fun nonempty =>
        feed_separated p operands (.call start) nonempty (Nat.add_comm 1 _) rfl fits.2 within
    refine ⟨.closeParen, rfl, ?_⟩
    rw [feed_append first (feed_append opened (collects.call closes)), Atom.tree, Tree.program,
      Phrase.length_trees, List.append_assoc]
    rfl

/-- The tokens of a phrase send its program but for the operators that wait at its end. -/
theorem feed_phrase (p : Precedence) (e : Phrase) (w : Waiting) {tokens : List Token}
    {base : List Entry} {last : Option TokenKind} (fits : e.commasFit (separates base) = true)
    (spelled : tokens.filterMap Token.mark? = e.marks)
    (before : last.any TokenKind.endsOperand = false)
    (floor : w = .nothing → flush base = ([], base)) :
    Gathers p ⟨entries w.operators ++ base, last⟩ tokens base w.gathered (e.tree p w).program := by
  cases e with
  | atom a =>
    obtain ⟨kind, operand, passed⟩ := feed_atom p a fits spelled before
    exact ⟨_, w.operators, kind, operand, passed, (w.program_complete _).symm⟩
  | unary symbol rest =>
    simp only [Phrase.commasFit, Bool.and_eq_true] at fits
    obtain ⟨front, others, rfl, sign, remaining⟩ := Token.exists_of_marks_cons spelled
    have plain := plain_of_commasFit fits.1 w.operators
    rw [← separates_entries w.operators] at fits
    exact Gathers.unary before plain sign
      (feed_phrase p rest (.unary symbol) fits.2 remaining rfl nofun)
  | binary left symbol rest =>
    simp only [Phrase.commasFit, Bool.and_eq_true] at fits
    obtain ⟨atom, others, rfl, operand, remaining⟩ := List.filterMap_eq_append_iff.1 spelled
    obtain ⟨front, others, rfl, sign, remaining⟩ := Token.exists_of_marks_cons remaining
    have plain := plain_of_commasFit fits.1.2 w.operators
    obtain ⟨kind, ends, first⟩ := feed_atom p left fits.1.1 operand before
    have second := feed_between (p := p) floor plain ends sign
    -- An operator is tested once, against the binary operator right after it.
    by_cases early : w.IsEarly p symbol
    · rw [if_pos early] at second
      rw [Phrase.tree, if_pos early]
      exact Gathers.early first second
        (feed_phrase p rest (.binary (w.complete (left.tree p)) symbol) fits.2 remaining rfl nofun)
    · rw [if_neg early] at second
      rw [Phrase.tree, if_neg early]
      rw [← separates_entries w.operators] at fits
      exact Gathers.late first second
        (feed_phrase p rest (.binary (left.tree p) symbol) fits.2 remaining rfl nofun)

/-- The tokens of phrases with commas between them send the programs of all, and each comma is
counted. -/
theorem feed_separated (p : Precedence) (es : List Phrase) {opener : Nat → Entry}
    (counting : Counting opener) {tokens : List Token} {base : List Entry}
    {last : Option TokenKind} {count total : Nat} (nonempty : es ≠ [])
    (sum : count + es.length = total + 1) (before : last.any TokenKind.endsOperand = false)
    (fits : Phrase.allCommasFit es = true)
    (spelled : tokens.filterMap Token.mark? = Phrase.separated es) :
    Gathers p ⟨opener count :: base, last⟩ tokens (opener total :: base)
      [] (Tree.programs (Phrase.trees p es)) := by
  match es with
  | [e] =>
    simp only [Phrase.allCommasFit, Bool.and_true] at fits
    obtain rfl : count = total := Nat.add_right_cancel sum
    have here : e.commasFit (separates (opener count :: base)) = true := by
      rw [counting.separates]
      exact fits
    simp only [Phrase.trees, Tree.programs, List.append_nil]
    exact feed_phrase p e .nothing here spelled before fun _ => counting.flush count base
  | e :: next :: rest =>
    simp only [Phrase.allCommasFit, Bool.and_eq_true] at fits
    have here : e.commasFit (separates (opener count :: base)) = true := by
      rw [counting.separates]
      exact fits.1
    have others : Phrase.allCommasFit (next :: rest) = true := by
      simpa only [Phrase.allCommasFit, Bool.and_eq_true] using fits.2
    have left : count + 1 + (next :: rest).length = total + 1 := by
      simp only [List.length_cons] at sum ⊢
      omega
    obtain ⟨front, back, rfl, first, remaining⟩ := List.filterMap_eq_append_iff.1 spelled
    obtain ⟨comma, back, rfl, sign, remaining⟩ := Token.exists_of_marks_cons remaining
    have gathers := feed_phrase p e .nothing here first before fun _ => counting.flush count base
    have later : Gathers p ⟨Yard.countOne (opener count :: base), some .operator⟩ back
        (opener total :: base) [] (Tree.programs (Phrase.trees p (next :: rest))) := by
      rw [counting.countOne]
      exact feed_separated p (next :: rest) counting (List.cons_ne_nil next rest) left rfl others
        remaining
    exact Gathers.comma (counting.flush count base) (counting.separates count base) sign
      gathers later

end

/-- A fresh yard makes of a phrase the program of its tree. -/
theorem run_phrase (p : Precedence) {e : Phrase} {tokens : List Token}
    (fits : e.commasFit false = true) (spelled : tokens.filterMap Token.mark? = e.marks) :
    empty.run p (tokens.map .ok) = ((e.tree p .nothing).program, none) := by
  have gathers : Gathers p empty tokens [] [] (e.tree p .nothing).program :=
    feed_phrase p e .nothing fits spelled rfl fun _ => rfl
  obtain ⟨program, waiting, kind, operand, passed, total⟩ := gathers
  have finished : (Yard.mk (entries waiting ++ []) (some kind)).run p [] =
      (applications waiting, none) := by
    simp only [run, finish, flush_entries waiting (rfl : flush [] = _)]
  have whole := run_of_feed passed []
  rw [List.append_nil, finished] at whole
  rw [whole, ← total]
  rfl

end Yard

theorem Config.items_of_run {φ σ : Type} [Source σ (Except Fault Token)] (config : Config φ)
    {source : σ} {items : List (Except Fault Token)} {program : Program}
    (yielded : Source.items source = items)
    (ran : Yard.empty.run config.precedence items = (program, none)) :
    Source.items (config.instructions source) = program.map .ok := by
  have whole := Stage.items_new config.precedence source
  rw [yielded, ran] at whole
  rw [Config.instructions, whole, Program.stream]
  exact List.append_nil _

/-- Ordering the tokens of a phrase succeeds, and the instructions are the program of its tree. -/
theorem Config.items_phrase {φ σ : Type} [Source σ (Except Fault Token)] (config : Config φ)
    {source : σ} {e : Phrase} {tokens : List Token} (fits : e.commasFit false = true)
    (spelled : tokens.filterMap Token.mark? = e.marks)
    (yielded : Source.items source = tokens.map .ok) :
    Source.items (config.instructions source) =
      (e.tree config.precedence .nothing).program.map .ok := by
  have ordered := Yard.run_phrase config.precedence fits spelled
  exact config.items_of_run yielded ordered

/-- In `a - b * c - f(-d, [])` the first operator is late and the second one early. -/
theorem Config.items_phrase_late_early :
    let e : Phrase :=
      .binary (.word "a") "-" (.binary (.word "b") "*" (.binary (.word "c") "-"
        (.atom (.call (.word "f") [.unary "-" (.atom (.word "d")), .atom (.array [])]))))
    let tokens : List Token :=
      [⟨.word, "a", 0⟩, ⟨.operator, "-", 1⟩, ⟨.word, "b", 2⟩, ⟨.operator, "*", 3⟩,
       ⟨.word, "c", 4⟩, ⟨.whitespace, " ", 5⟩, ⟨.operator, "-", 6⟩, ⟨.word, "f", 7⟩,
       ⟨.openParen, "(", 8⟩, ⟨.operator, "-", 9⟩, ⟨.word, "d", 10⟩, ⟨.operator, ",", 11⟩,
       ⟨.openBracket, "[", 12⟩, ⟨.closeBracket, "]", 13⟩, ⟨.closeParen, ")", 14⟩]
    (e.commasFit false = true ∧ tokens.filterMap Token.mark? = e.marks) ∧
      Source.items ((Config.standard : Config Unit).instructions
          (tokens.map (.ok : Token → Except Fault Token))) =
        [.ok (.load "a"), .ok (.load "b"), .ok (.load "c"), .ok (.apply "*" 2), .ok (.load "f"),
         .ok (.load "d"), .ok (.apply "-" 1), .ok (.collect 0), .ok (.call 2),
         .ok (.apply "-" 2), .ok (.apply "-" 2)] := by
  intro e tokens
  have fits : e.commasFit false = true := by decide
  have spelled : tokens.filterMap Token.mark? = e.marks := by decide
  refine ⟨⟨fits, spelled⟩, ?_⟩
  rw [Config.items_phrase _ fits spelled (Source.items_list _)]
  rfl

end Reckoner
