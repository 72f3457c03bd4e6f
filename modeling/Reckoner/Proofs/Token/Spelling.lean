import Reckoner.Proofs.Lexicon.Standard
import Reckoner.Proofs.Phrase.Basic
import Reckoner.Proofs.Token.Coverage

set_option autoImplicit false

namespace Reckoner

namespace Mark

def kind : Mark → TokenKind
  | number _ => .number
  | string _ => .string
  | word _ => .word
  | operator _ => .operator
  | openParen => .openParen
  | closeParen => .closeParen
  | openBracket => .openBracket
  | closeBracket => .closeBracket

def text : Mark → String
  | number raw => raw
  | string raw => raw
  | word raw => raw
  | operator symbol => symbol
  | openParen => "("
  | closeParen => ")"
  | openBracket => "["
  | closeBracket => "]"

theorem mark?_token (m : Mark) (start : Nat) :
    (Token.mk m.kind m.text start).mark? = some m := by
  cases m <;> rfl

/-- Whether the mark is read as what it is, wherever a gap follows. -/
def IsRead (l : Lexicon) (m : Mark) : Prop :=
  l.Reads m.kind m.text.toList

def spaced (marks : List Mark) : String :=
  " ".intercalate (marks.map text)

theorem toList_spaced_singleton (m : Mark) : (spaced [m]).toList = m.text.toList := by
  simp only [spaced, List.map_cons, List.map_nil, String.intercalate_singleton]

theorem toList_spaced_cons_cons (m n : Mark) (rest : List Mark) :
    (spaced (m :: n :: rest)).toList = m.text.toList ++ ' ' :: (spaced (n :: rest)).toList := by
  have space : " ".toList = [' '] := by decide
  simp only [spaced, List.map_cons, String.intercalate_cons_cons, String.toList_append,
    List.append_assoc, space, List.singleton_append]

/-- How many `[` are open after marks, if each `]` among them closes one. -/
def depthAfter? (depth : Nat) (marks : List Mark) : Option Nat :=
  marks.foldlM (fun open' m => Lexer.depthAfter? open' m.kind) depth

theorem depthAfter?_cons {depth next : Nat} {m : Mark}
    (step : Lexer.depthAfter? depth m.kind = some next) (rest : List Mark) :
    depthAfter? depth (m :: rest) = depthAfter? next rest := by
  rw [depthAfter?, List.foldlM_cons, step]
  rfl

theorem exists_of_depthAfter?_cons {depth last : Nat} {m : Mark} {rest : List Mark}
    (counted : depthAfter? depth (m :: rest) = some last) :
    ∃ next, Lexer.depthAfter? depth m.kind = some next ∧ depthAfter? next rest = some last := by
  rw [depthAfter?, List.foldlM_cons] at counted
  exact Option.bind_eq_some_iff.1 counted

theorem depthAfter?_append {depth next : Nat} {first : List Mark}
    (front : depthAfter? depth first = some next) (second : List Mark) :
    depthAfter? depth (first ++ second) = depthAfter? next second := by
  rw [depthAfter?] at front
  rw [depthAfter?, List.foldlM_append, front]
  rfl

theorem IsRead.exists_first {l : Lexicon} {m : Mark} (reads : m.IsRead l) (rest : List Mark) :
    ∃ c cs, (spaced (m :: rest)).toList = c :: cs ∧ l.classes .whitespace c = false := by
  unfold IsRead at reads
  cases spelled : m.text.toList with
  | nil =>
    rw [spelled] at reads
    exact reads.elim
  | cons c front =>
    rw [spelled] at reads
    cases rest with
    | nil => exact ⟨c, front, by rw [toList_spaced_singleton, spelled], reads.1⟩
    | cons n later =>
      refine ⟨c, front ++ ' ' :: (spaced (n :: later)).toList, ?_, reads.1⟩
      rw [toList_spaced_cons_cons, spelled, List.cons_append]

theorem length_le_utf8ByteSize_spaced {l : Lexicon} {marks : List Mark}
    (reads : ∀ m ∈ marks, m.IsRead l) : marks.length ≤ (spaced marks).utf8ByteSize := by
  induction marks with
  | nil => exact Nat.zero_le _
  | cons m rest ih =>
    have here : m.text.utf8ByteSize ≠ 0 := by
      intro nothing
      have first := reads m List.mem_cons_self
      rw [String.utf8ByteSize_eq_zero_iff] at nothing
      rw [IsRead, nothing, String.toList_empty] at first
      exact first
    have others := ih fun n member => reads n (List.mem_cons_of_mem m member)
    cases rest with
    | nil =>
      simp only [spaced, List.map_cons, List.map_nil, String.intercalate_singleton,
        List.length_cons, List.length_nil]
      omega
    | cons n later =>
      simp only [spaced, List.map_cons, String.intercalate_cons_cons, String.utf8ByteSize_append,
        List.length_cons] at others ⊢
      omega

end Mark

mutual

/-- An atom closes each `[` that it opens, and no other. -/
theorem Atom.depthAfter?_marks (a : Atom) (depth : Nat) :
    Mark.depthAfter? depth a.marks = some depth := by
  cases a with
  | number raw => rfl
  | string raw => rfl
  | word raw => rfl
  | group inner =>
    rw [Atom.marks, Mark.depthAfter?_cons rfl,
      Mark.depthAfter?_append (inner.depthAfter?_marks depth)]
    rfl
  | array items =>
    rw [Atom.marks, Mark.depthAfter?_cons rfl,
      Mark.depthAfter?_append (Phrase.depthAfter?_separated items (depth + 1))]
    rfl
  | call callee operands =>
    rw [Atom.marks, Mark.depthAfter?_append (callee.depthAfter?_marks depth),
      Mark.depthAfter?_cons rfl, Mark.depthAfter?_append (Phrase.depthAfter?_separated operands depth)]
    rfl

theorem Phrase.depthAfter?_marks (e : Phrase) (depth : Nat) :
    Mark.depthAfter? depth e.marks = some depth := by
  cases e with
  | atom a => exact a.depthAfter?_marks depth
  | unary symbol rest =>
    rw [Phrase.marks, Mark.depthAfter?_cons rfl, rest.depthAfter?_marks depth]
  | binary left symbol rest =>
    rw [Phrase.marks, Mark.depthAfter?_append (left.depthAfter?_marks depth),
      Mark.depthAfter?_cons rfl, rest.depthAfter?_marks depth]

theorem Phrase.depthAfter?_separated (es : List Phrase) (depth : Nat) :
    Mark.depthAfter? depth (Phrase.separated es) = some depth := by
  match es with
  | [] => rfl
  | [e] => exact e.depthAfter?_marks depth
  | e :: next :: rest =>
    rw [Phrase.separated, Mark.depthAfter?_append (e.depthAfter?_marks depth),
      Mark.depthAfter?_cons rfl, Phrase.depthAfter?_separated (next :: rest) depth]

end

namespace Lexer

variable {l : Lexicon} {depth : Nat}

theorem items_of_nil (position : Nat) : Source.items (Lexer.mk l [] position depth false) = [] :=
  Source.items_of_pull_none rfl

theorem items_of_split {c : Char} {rest taken after : List Char} {kind : TokenKind} {next : Nat}
    (splits : l.split? c rest = some (kind, taken, after))
    (counted : depthAfter? depth kind = some next) (position : Nat) :
    let token : Token := ⟨kind, String.ofList taken, position⟩
    Source.items (Lexer.mk l (c :: rest) position depth false) =
      .ok token :: Source.items (Lexer.mk l after token.stop next false) := by
  exact Source.items_of_pull_some (next_of_split rfl rfl splits counted)

theorem items_of_failed (rest : List Char) (position : Nat) :
    Source.items (Lexer.mk l rest position depth true) = [] :=
  Source.items_of_pull_none rfl

theorem items_of_mismatched {c : Char} {rest taken after : List Char} {kind : TokenKind}
    (splits : l.split? c rest = some (kind, taken, after))
    (closed : depthAfter? depth kind = none) (position : Nat) :
    Source.items (Lexer.mk l (c :: rest) position depth false) =
      [.error (.mismatchedBracket position)] := by
  rw [← items_of_failed (c :: rest) position]
  apply Source.items_of_pull_some
  simp only [Source.pull, Lexer.next, Lexer.read, splits, closed]
  rfl

theorem items_of_unrecognized {c : Char} {rest : List Char} (splits : l.split? c rest = none)
    (position : Nat) :
    Source.items (Lexer.mk l (c :: rest) position depth false) =
      [.error (.unrecognizedCharacter c position)] := by
  rw [← items_of_failed (c :: rest) position]
  apply Source.items_of_pull_some
  simp only [Source.pull, Lexer.next, Lexer.read, splits]
  rfl

/-- A mark before a gap is one token. -/
theorem exists_items_mark {m : Mark} {after : List Char} {next : Nat}
    (reads : m.IsRead l) (gap : Lexicon.Gap after)
    (counted : depthAfter? depth m.kind = some next) (position : Nat) :
    ∃ stop, Source.items (Lexer.mk l (m.text.toList ++ after) position depth false) =
      .ok ⟨m.kind, m.text, position⟩ :: Source.items (Lexer.mk l after stop next false) := by
  unfold Mark.IsRead at reads
  cases spelled : m.text.toList with
  | nil =>
    rw [spelled] at reads
    exact reads.elim
  | cons c rest =>
    rw [spelled] at reads
    have whole : String.ofList (c :: rest) = m.text := by
      rw [← spelled, String.ofList_toList]
    have items := items_of_split (reads.2 after gap) counted position
    rw [whole] at items
    exact ⟨_, items⟩

/-- Marks with spaces between them are split into their tokens and blank ones. -/
theorem exists_items_spaced
    (space : ∀ {c}, l.classes .whitespace c = false →
      ∀ rest, l.split? ' ' (c :: rest) = some (.whitespace, [' '], c :: rest))
    {marks : List Mark} (reads : ∀ m ∈ marks, m.IsRead l) {last : Nat}
    (counted : Mark.depthAfter? depth marks = some last) (position : Nat) :
    ∃ tokens : List Token,
      Source.items (Lexer.mk l (Mark.spaced marks).toList position depth false) =
        tokens.map .ok ∧ tokens.filterMap Token.mark? = marks := by
  induction marks generalizing position depth with
  | nil => exact ⟨[], items_of_nil position, rfl⟩
  | cons m rest ih =>
    obtain ⟨next, step, counted⟩ := Mark.exists_of_depthAfter?_cons counted
    have here := reads m List.mem_cons_self
    have others : ∀ n ∈ rest, n.IsRead l := fun n member =>
      reads n (List.mem_cons_of_mem m member)
    cases rest with
    | nil =>
      obtain ⟨stop, items⟩ := exists_items_mark here .nil step position
      rw [List.append_nil, items_of_nil] at items
      refine ⟨[⟨m.kind, m.text, position⟩], ?_, ?_⟩
      · rw [Mark.toList_spaced_singleton, items]
        rfl
      · rw [List.filterMap_cons_some (m.mark?_token position), List.filterMap_nil]
    | cons n later =>
      obtain ⟨c, cs, written, solid⟩ := (others n List.mem_cons_self).exists_first later
      obtain ⟨stop, items⟩ := exists_items_mark here (.space _) step position
      have uncounted : depthAfter? next .whitespace = some next := rfl
      have blank := items_of_split (space solid cs) uncounted stop
      obtain ⟨tokens, remaining, marked⟩ := ih others counted (Token.stop ⟨.whitespace, " ", stop⟩)
      rw [← written] at blank
      refine ⟨⟨m.kind, m.text, position⟩ :: ⟨.whitespace, " ", stop⟩ :: tokens, ?_, ?_⟩
      · rw [Mark.toList_spaced_cons_cons, items, blank, remaining]
        rfl
      · rw [List.filterMap_cons_some (m.mark?_token position), List.filterMap_cons_none rfl, marked]

end Lexer

end Reckoner
