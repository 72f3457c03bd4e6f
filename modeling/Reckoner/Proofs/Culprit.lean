import Reckoner.Proofs.Yard.Matching

set_option autoImplicit false

namespace Reckoner

/-- What is to blame for a fault, if the tokens `read` were taken in up to it, the one that raised it
among them. -/
inductive Culprit (source : String) (read : List Token) : Nat → Fault → Prop
  | character {c : Char} {place : Nat} (stands : Text.StandsAt source place c) :
      Culprit source read place (.unrecognizedCharacter c place)
  | closeBracket {place : Nat} (stands : Text.StandsAt source place ']') :
      Culprit source read place (.mismatchedBracket place)
  /-- Each `(` before the `)` was closed, or a `[` after it was not. -/
  | closeParen {before : List Token} {t : Token} (latest : read = before ++ [t])
      (kind : t.kind = .closeParen) (stands : Text.StandsAt source t.start ')')
      (taken : ∀ front o back, before = front ++ o :: back → o.kind = .openParen →
        o.ClosedIn back ∨ ∃ between u later,
          back = between ++ u :: later ∧ u.kind = .openBracket ∧ ¬ u.ClosedIn later) :
      Culprit source read t.start (.unmatchedParen t.start)
  /-- A `(` or a `[` that none of the closers read belongs to. -/
  | opener {front back : List Token} {t : Token} {c : Char} (split : read = front ++ t :: back)
      (which : (t.kind, c) ∈ [(TokenKind.openParen, '('), (.openBracket, '[')])
      (stands : Text.StandsAt source t.start c) (unclosed : ¬ t.ClosedIn back) :
      Culprit source read t.start (.unclosedDelimiter t.start)

namespace Culprit

variable {source : String} {read : List Token} {place : Nat} {fault : Fault}

theorem position? (culprit : Culprit source read place fault) :
    fault.position? = some place := by
  cases culprit <;> rfl

theorem exists_standsAt (culprit : Culprit source read place fault) :
    ∃ c, Text.StandsAt source place c := by
  cases culprit with
  | character stands => exact ⟨_, stands⟩
  | closeBracket stands => exact ⟨_, stands⟩
  | closeParen _ _ stands _ => exact ⟨_, stands⟩
  | opener _ _ stands _ => exact ⟨_, stands⟩

end Culprit

namespace Opener

theorem Is.exists_delimiter {o : Opener} {t : Token} (opens : o.Is t) :
    ∃ c, t.kind.delimiter? = some c ∧
      (t.kind, c) ∈ [(TokenKind.openParen, '('), (.openBracket, '[')] := by
  rcases opens.kind_cases with ⟨kind, _⟩ | ⟨kind, _⟩ <;> rw [kind]
  · exact ⟨'(', rfl, List.mem_cons_self⟩
  · exact ⟨'[', rfl, List.mem_cons_of_mem _ List.mem_cons_self⟩

end Opener

theorem Culprit.exists_of_unclosed {l : Lexicon} {source : String} {read front back : List Token}
    {x : Lexer} {o : Opener} {t : Token} (yields : (Lexer.new l source).Yields read x)
    (split : read = front ++ t :: back) (opens : o.Is t) (unclosed : ¬ t.ClosedIn back) :
    ∃ place, Culprit source read place (.unclosedDelimiter o.start) := by
  obtain ⟨c, delimiter, which⟩ := opens.exists_delimiter
  have stands := yields.standsAt (by rw [split]; simp) delimiter
  rw [← opens.start]
  exact ⟨_, .opener split which stands unclosed⟩

theorem Config.culprit_of_compile {φ : Type} {config : Config φ} {source : String} {fault : Fault}
    (failed : config.compile source = .error fault) :
    ∃ place, Culprit source
      (Yard.empty.taken config.precedence (Source.items (config.tokens source))) place fault := by
  obtain ⟨front, unclosed, x, yields, passed, stop⟩ := exists_stop failed
  have opened : Opener.Opened unclosed front := .of_afterAll passed
  rcases stop with ⟨read, o, outer, rfl, rfl⟩ | ⟨read, y, here⟩ | ⟨t, read, refused⟩
  · obtain ⟨before, t, inner, split, opens, unclosed⟩ := opened.innermost
    exact Culprit.exists_of_unclosed yields (read.trans split) opens unclosed
  · obtain ⟨c, later, left, _, which⟩ := Lexer.exists_of_next_error here
    have covers : x.Covers source front := by
      rw [← read]
      exact yields.covers
    have stands : Text.StandsAt source x.position c := by
      refine ⟨Token.joined front, String.ofList later, ?_, covers.position⟩
      rw [← covers.text, left, String.append_assoc, ← String.ofList_append]
      rfl
    rcases which with rfl | ⟨rfl, rfl⟩
    · exact ⟨_, .character stands⟩
    · exact ⟨_, .closeBracket stands⟩
  · have latest : t ∈ Yard.empty.taken config.precedence (Source.items (config.tokens source)) := by
      rw [read]
      exact List.mem_append_right front List.mem_cons_self
    rcases Opener.cases_of_after_error refused with ⟨kind, rfl, noParen⟩ |
        ⟨start, outer, kind, rfl, rfl⟩ | ⟨kind, _, rfl⟩
    · have stands : Text.StandsAt source t.start ')' := yields.standsAt latest (by rw [kind]; rfl)
      exact ⟨_, .closeParen read kind stands fun before o back split =>
        opened.paren_closedIn noParen split⟩
    · have other : t.kind ≠ (Opener.paren start).closer := by
        rw [kind]
        exact nofun
      obtain ⟨before, u, inner, split, opens, unclosed⟩ := opened.innermost_concat other
      exact Culprit.exists_of_unclosed yields (read.trans split) opens unclosed
    · exact ⟨_, .closeBracket (yields.standsAt latest (by rw [kind]; rfl))⟩

/-- A fault of a compilation is of one of four kinds, it lies in the source between two characters,
and what is to blame for it stands there. -/
theorem Config.exists_culprit {φ : Type} {config : Config φ} {source : String} {fault : Fault}
    (failed : config.compile source = .error fault) :
    ∃ place, fault.position? = some place ∧ place < source.utf8ByteSize ∧
      (⟨place⟩ : String.Pos.Raw).IsValid source ∧
      Culprit source
        (Yard.empty.taken config.precedence (Source.items (config.tokens source))) place fault := by
  obtain ⟨place, culprit⟩ := culprit_of_compile failed
  obtain ⟨c, stands⟩ := culprit.exists_standsAt
  exact ⟨place, culprit.position?, stands.lt, stands.isValid, culprit⟩

/-- In `[(a]` behind a blank of two bytes the `]` finds the `(` open, and that is where the fault
is. -/
theorem Config.exists_culprit_unclosed :
    let config : Config Unit := .standard
    let read : List Token :=
      [⟨.whitespace, "\xa0", 0⟩, ⟨.openBracket, "[", 2⟩, ⟨.openParen, "(", 3⟩, ⟨.word, "a", 4⟩,
       ⟨.closeBracket, "]", 5⟩]
    config.compile "\xa0[(a]" = .error (.unclosedDelimiter 3) ∧
      Culprit "\xa0[(a]" read 3 (.unclosedDelimiter 3) := by
  intro config read
  let left (rest : List Char) (position depth : Nat) : Lexer :=
    ⟨⟨Standard.symbolsInOrder, .standard⟩, rest, position, depth, false⟩
  have yields : (config.tokens "\xa0[(a]").Yields read (left [] 6 0) := by
    rw [tokens, Standard.lexicon_eq rfl]
    exact .token (y := left ['[', '(', 'a', ']'] 2 0) (by rfl) <|
      .token (y := left ['(', 'a', ']'] 3 1) (by rfl) <|
      .token (y := left ['a', ']'] 4 1) (by rfl) <|
      .token (y := left [']'] 5 1) (by rfl) <|
      .token (by rfl) (.nothing _)
  have items : Source.items (config.tokens "\xa0[(a]") = read.map .ok ++ [] := by
    rw [yields.items, Source.items_of_pull_none rfl]
  have failed : config.compile "\xa0[(a]" = .error (.unclosedDelimiter 3) := by
    rw [compile_eq_error_iff, items]
    rfl
  obtain ⟨place, position, _, _, culprit⟩ := exists_culprit failed
  obtain rfl : 3 = place := Option.some.inj position
  rw [items] at culprit
  exact ⟨failed, culprit⟩

end Reckoner
