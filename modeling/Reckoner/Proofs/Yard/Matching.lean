import Mathlib.Data.List.Induction
import Reckoner.Proofs.Refinement
import Reckoner.Proofs.Token.Provenance
import Reckoner.Proofs.Yard.Conservation

set_option autoImplicit false

namespace Reckoner

/-- Whether a closer among the tokens after an opener belongs to it. -/
def Token.ClosedIn (t : Token) (later : List Token) : Prop :=
  ∃ inner closer rest,
    later = inner ++ closer :: rest ∧ t.kind.closer? = some closer.kind ∧ Nested inner

theorem Token.ClosedIn.append {t : Token} {later : List Token} (closed : t.ClosedIn later)
    (more : List Token) : t.ClosedIn (later ++ more) := by
  obtain ⟨inner, closer, rest, rfl, pair, nested⟩ := closed
  exact ⟨inner, closer, rest ++ more, by simp, pair, nested⟩

/-- A token among others stands before one of them, is that one, or stands after it. -/
theorem Token.split_cases {front back before after : List Token} {t u : Token}
    (split : before ++ u :: after = front ++ t :: back) :
    (∃ between, before = front ++ t :: between ∧ back = between ++ u :: after) ∨
      (before = front ∧ u = t ∧ after = back) ∨
      ∃ between, after = between ++ t :: back ∧ front = before ++ u :: between := by
  rcases List.append_eq_append_iff.1 split with ⟨between, whole, rest⟩ | ⟨between, whole, rest⟩
  · rcases List.cons_eq_append_iff.1 rest with ⟨rfl, same⟩ | ⟨others, rfl, same⟩
    · obtain ⟨rfl, rfl⟩ := List.cons.inj same
      exact .inr (.inl ⟨by rw [whole, List.append_nil], rfl, rfl⟩)
    · exact .inr (.inr ⟨others, same, whole⟩)
  · rcases List.cons_eq_append_iff.1 rest with ⟨rfl, same⟩ | ⟨others, rfl, same⟩
    · obtain ⟨rfl, rfl⟩ := List.cons.inj same
      exact .inr (.inl ⟨by rw [whole, List.append_nil], rfl, rfl⟩)
    · exact .inl ⟨others, whole, same⟩

theorem TokenKind.isDelimiter_of_closer? {kind closer : TokenKind}
    (pair : kind.closer? = some closer) : kind.isDelimiter = true := by
  cases kind <;> first | rfl | cases pair

theorem TokenKind.closer?_of_closer? {kind closer : TokenKind}
    (pair : kind.closer? = some closer) : closer.closer? = none := by
  cases kind <;> cases pair <;> rfl

namespace Nested

/-- Each opener among nested tokens is closed by a later one of them. -/
theorem closedIn {tokens front back : List Token} {t : Token} {closing : TokenKind}
    (nested : Nested tokens) (split : tokens = front ++ t :: back)
    (opener : t.kind.closer? = some closing) : t.ClosedIn back := by
  induction nested generalizing front back with
  | nil => simp at split
  | @plain u rest other _ ih =>
    rcases List.cons_eq_append_iff.1 split with ⟨rfl, same⟩ | ⟨before, rfl, others⟩
    · obtain ⟨rfl, rfl⟩ := List.cons.inj same
      rw [TokenKind.isDelimiter_of_closer? opener] at other
      cases other
    · exact ih others
  | @enclosed o c inner rest pair inside _ insideIh restIh =>
    rcases List.cons_eq_append_iff.1 split with ⟨rfl, same⟩ | ⟨before, rfl, others⟩
    · obtain ⟨rfl, rfl⟩ := List.cons.inj same
      exact ⟨inner, c, rest, rfl, pair, inside⟩
    · rcases Token.split_cases others with ⟨between, same, rfl⟩ | ⟨_, rfl, _⟩ | ⟨between, same, _⟩
      · exact (insideIh same).append _
      · rw [TokenKind.closer?_of_closer? pair] at opener
        cases opener
      · exact restIh same

/-- No token of nested ones closes an opener before them all. -/
theorem not_closedIn {tokens : List Token} (nested : Nested tokens) (t : Token) :
    ¬ t.ClosedIn tokens := by
  rintro ⟨inner, closer, rest, rfl, pair, inside⟩
  have whole := nested.afterAll []
  rw [Opener.afterAll_append_of_ok (inside.afterAll [])] at whole
  obtain ⟨unclosed, step, _⟩ := Opener.exists_of_afterAll_cons whole
  unfold Opener.after at step
  cases kind : t.kind <;> simp only [kind, TokenKind.closer?, reduceCtorEq] at pair <;>
    simp [← Option.some.inj pair] at step

/-- Nor does a token after them that is not its closer. -/
theorem not_closedIn_concat {tokens : List Token} {t u : Token} (nested : Nested tokens)
    (other : t.kind.closer? ≠ some u.kind) : ¬ t.ClosedIn (tokens ++ [u]) := by
  rintro ⟨inner, closer, rest, split, pair, inside⟩
  rcases List.eq_nil_or_concat rest with rfl | ⟨later, v, rfl⟩
  · obtain ⟨_, same⟩ := List.append_inj' split rfl
    obtain rfl := List.head_eq_of_cons_eq same
    exact other pair
  · rw [List.concat_eq_append, ← List.cons_append, ← List.append_assoc] at split
    obtain ⟨rfl, _⟩ := List.append_inj' split rfl
    exact nested.not_closedIn t ⟨inner, closer, later, rfl, pair, inside⟩

end Nested

namespace Opener

/-- Tokens of which some openers are left open, the innermost first: behind each of them all is nested
up to the next one. -/
inductive Opened : List Opener → List Token → Prop
  | nothing {tokens : List Token} (nested : Nested tokens) : Opened [] tokens
  | within {o : Opener} {outer : List Opener} {front inner : List Token} {t : Token}
      (outside : Opened outer front) (opens : o.Is t) (nested : Nested inner) :
      Opened (o :: outer) (front ++ t :: inner)

namespace Opened

variable {unclosed inner : List Opener} {tokens more : List Token} {t : Token}

theorem append (opened : Opened unclosed tokens) (nested : Nested more) :
    Opened unclosed (tokens ++ more) := by
  cases opened with
  | nothing before => exact .nothing (before.append nested)
  | within outside opens before =>
    rw [List.append_assoc, List.cons_append]
    exact .within outside opens (before.append nested)

theorem opener {o : Opener} (opened : Opened unclosed tokens) (opens : o.Is t) :
    Opened (o :: unclosed) (tokens ++ [t]) :=
  .within opened opens .nil

theorem closer {o : Opener} (opened : Opened (o :: unclosed) tokens) (kind : t.kind = o.closer) :
    Opened unclosed (tokens ++ [t]) := by
  cases opened with
  | within outside opens nested =>
    rw [List.append_assoc, List.cons_append]
    exact outside.append (.enclosed (opens.closer.trans (congrArg some kind.symm)) nested .nil)

theorem step (opened : Opened inner tokens) (passed : after inner t = .ok unclosed) :
    Opened unclosed (tokens ++ [t]) := by
  rcases cases_of_after passed with ⟨o, opens, rfl⟩ | ⟨o, rfl, kind⟩ | ⟨other, rfl⟩
  · exact opened.opener opens
  · exact opened.closer kind
  · exact opened.append (.plain other .nil)

/-- What the matcher holds after tokens is what they leave open. -/
theorem of_afterAll (passed : afterAll [] tokens = .ok unclosed) : Opened unclosed tokens := by
  induction tokens using List.reverseRecOn generalizing unclosed with
  | nil =>
    obtain rfl := Except.ok.inj passed
    exact .nothing .nil
  | append_singleton tokens t ih =>
    cases front : afterAll [] tokens with
    | error fault =>
      rw [afterAll_append_of_error front] at passed
      cases passed
    | ok inner =>
      rw [afterAll_append_of_ok front] at passed
      obtain ⟨last, step, ended⟩ := exists_of_afterAll_cons passed
      obtain rfl := Except.ok.inj ended
      exact (ih front).step step

/-- The innermost of them is an opener that nothing after it closes. -/
theorem innermost {o : Opener} (opened : Opened (o :: unclosed) tokens) :
    ∃ front t inner, tokens = front ++ t :: inner ∧ o.Is t ∧ ¬ t.ClosedIn inner := by
  cases opened with
  | @within _ _ front inner t outside opens nested =>
    exact ⟨front, t, inner, rfl, opens, nested.not_closedIn t⟩

/-- Nor does the next token, if it is not its closer. -/
theorem innermost_concat {o : Opener} {u : Token} (opened : Opened (o :: unclosed) tokens)
    (other : u.kind ≠ o.closer) :
    ∃ front t inner, tokens ++ [u] = front ++ t :: inner ∧ o.Is t ∧ ¬ t.ClosedIn inner := by
  cases opened with
  | @within _ _ front inner t outside opens nested =>
    refine ⟨front, t, inner ++ [u], by simp, opens, nested.not_closedIn_concat ?_⟩
    rw [opens.closer, Ne, Option.some.injEq]
    exact fun same => other same.symm

/-- Where the innermost of them is not a `(`, each `(` has been closed, or a `[` after it has not. -/
theorem paren_closedIn {front back : List Token} (opened : Opened unclosed tokens)
    (noParen : ∀ start outer, unclosed ≠ paren start :: outer) (split : tokens = front ++ t :: back)
    (kind : t.kind = .openParen) :
    t.ClosedIn back ∨ ∃ between u later,
      back = between ++ u :: later ∧ u.kind = .openBracket ∧ ¬ u.ClosedIn later := by
  have opener : t.kind.closer? = some .closeParen := by rw [kind]; rfl
  cases opened with
  | nothing nested => exact .inl (nested.closedIn split opener)
  | @within o outer before inner u outside opens nested =>
    have bracket : u.kind = .openBracket := by
      rcases opens.kind_cases with ⟨_, rfl⟩ | ⟨opening, _⟩
      · exact absurd rfl (noParen _ outer)
      · exact opening
    rcases Token.split_cases split with ⟨between, _, rfl⟩ | ⟨_, rfl, _⟩ | ⟨between, same, _⟩
    · exact .inr ⟨between, u, inner, rfl, bracket, nested.not_closedIn u⟩
    · rw [bracket] at kind
      cases kind
    · exact .inl (nested.closedIn same opener)

end Opened

end Opener

/-- Where a run stops: at the end of its stream, at a fault of the stream, or at a token that the
matcher does not pass. The tokens that it takes in are those before and, if there is one, that
token. -/
theorem Yard.Course.exists_passed {p : Precedence} {y : Yard} {items : List (Except Fault Token)}
    {tokens : List Token} {program : Program} {fault : Option Fault}
    (course : Yard.Course p y items tokens program fault) :
    ∃ front unclosed, Opener.afterAll (Yard.openers y.stack) front = .ok unclosed ∧
      ((tokens = front ∧ items = front.map .ok ∧
          fault = unclosed.head?.map fun innermost => .unclosedDelimiter innermost.start) ∨
        (tokens = front ∧ ∃ f rest, items = front.map .ok ++ .error f :: rest ∧ fault = some f) ∨
        ∃ t rest f, tokens = front ++ [t] ∧ items = front.map .ok ++ .ok t :: rest ∧
          Opener.after unclosed t = .error f ∧ fault = some f) := by
  induction course with
  | ends y => exact ⟨[], _, rfl, .inl ⟨rfl, rfl, fault_finish y⟩⟩
  | stops y f rest => exact ⟨[], _, rfl, .inr (.inl ⟨rfl, f, rest, rfl, rfl⟩)⟩
  | @fails y t sent f step rest =>
    have matched := openers_accept p y t
    rw [step] at matched
    exact ⟨[], _, rfl, .inr (.inr ⟨t, rest, f, rfl, rfl, matched.symm, rfl⟩)⟩
  | @passes y next t sent later fault rest others step course ih =>
    have matched := openers_accept p y t
    rw [step] at matched
    obtain ⟨front, unclosed, passed, ended⟩ := ih
    refine ⟨t :: front, unclosed, (Opener.afterAll_cons_of_ok matched.symm front).trans passed, ?_⟩
    rcases ended with ⟨rfl, rfl, rfl⟩ | ⟨rfl, f, rest, rfl, rfl⟩ | ⟨u, rest, f, rfl, rfl, stop, rfl⟩
    · exact .inl ⟨rfl, rfl, rfl⟩
    · exact .inr (.inl ⟨rfl, f, rest, rfl, rfl⟩)
    · exact .inr (.inr ⟨u, rest, f, rfl, rfl, stop, rfl⟩)

/-- Where the compilation of a source stops that fails: with an opener left at the end, where the
lexer fails, or at a token that the matcher refuses. The lexer has yielded the tokens taken in. -/
theorem Config.exists_stop {φ : Type} {config : Config φ} {source : String} {fault : Fault}
    (failed : config.compile source = .error fault) :
    let taken := Yard.empty.taken config.precedence (Source.items (config.tokens source))
    ∃ front unclosed x, (config.tokens source).Yields taken x ∧
      Opener.afterAll [] front = .ok unclosed ∧
      ((taken = front ∧ ∃ o outer, unclosed = o :: outer ∧ fault = .unclosedDelimiter o.start) ∨
        (taken = front ∧ ∃ y, x.next = (some (.error fault), y)) ∨
        ∃ t, taken = front ++ [t] ∧ Opener.after unclosed t = .error fault) := by
  intro taken
  rw [compile_eq_error_iff] at failed
  have course := Yard.course_run config.precedence .empty (Source.items (config.tokens source))
  rw [failed] at course
  obtain ⟨rest, whole⟩ := course.exists_items
  obtain ⟨x, yields, remaining⟩ := Lexer.exists_yields_of_items whole
  obtain ⟨front, unclosed, passed, ended⟩ := course.exists_passed
  refine ⟨front, unclosed, x, yields, passed, ?_⟩
  rcases ended with ⟨read, _, same⟩ | ⟨read, f, others, items, same⟩ |
      ⟨t, _, f, read, _, refused, same⟩
  · cases unclosed with
    | nil => cases same
    | cons o outer => exact .inl ⟨read, o, outer, rfl, Option.some.inj same⟩
  · obtain rfl := Option.some.inj same
    rw [read, items, List.append_cancel_left_eq] at whole
    rw [← whole] at remaining
    obtain ⟨y, here, _⟩ := Source.exists_of_items_cons remaining
    exact .inr (.inl ⟨read, y, here⟩)
  · obtain rfl := Option.some.inj same
    exact .inr (.inr ⟨t, read, refused⟩)

end Reckoner
