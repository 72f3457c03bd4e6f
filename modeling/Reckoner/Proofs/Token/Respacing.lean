import Reckoner.Proofs.Token.Spelling
import Reckoner.Proofs.Yard.Brackets
import Reckoner.Proofs.Yard.Relocation

set_option autoImplicit false

namespace Reckoner

/-- Whether blanks end symbols, numbers and words, and are nothing but blank themselves. -/
structure Config.Spaced {φ : Type} (config : Config φ) : Prop where
  classes : config.classes = .standard
  plain : ∀ symbol ∈ config.operators, ∀ c ∈ symbol.toList, Text.isBlank c = false

namespace Text

def AllBlank (cs : List Char) : Prop :=
  ∀ c ∈ cs, isBlank c = true

theorem allBlank_nil : AllBlank [] := nofun

/-- Whether what a text begins with, up to its first blank, is at the front of another one. -/
def StartsAs (other after : List Char) : Prop :=
  ∀ s : List Char, (∀ c ∈ s, isBlank c = false) → s <+: other → s <+: after

variable {other after : List Char}

theorem StartsAs.append (starts : StartsAs other after) (front : List Char) :
    StartsAs (front ++ other) (front ++ after) := by
  intro s solid fits
  rcases List.prefix_or_prefix_of_prefix fits (List.prefix_append front other) with within | beyond
  · exact within.trans (List.prefix_append front after)
  · obtain ⟨u, rfl⟩ := beyond
    rw [List.prefix_append_right_inj] at fits ⊢
    exact starts u (fun c member => solid c (List.mem_append_right front member)) fits

theorem startsAs_of_blank {c : Char} (blank : isBlank c = true) (rest after : List Char) :
    StartsAs (c :: rest) after := by
  intro s solid fits
  cases s with
  | nil => exact List.nil_prefix
  | cons d others =>
    obtain ⟨rfl, _⟩ := List.cons_prefix_cons.1 fits
    rw [solid d List.mem_cons_self] at blank
    cases blank

theorem StartsAs.head? (starts : StartsAs other after) {c : Char} (first : other.head? = some c)
    (solid : isBlank c = false) : after.head? = some c := by
  cases other with
  | nil => cases first
  | cons d rest =>
    obtain rfl := Option.some.inj first
    obtain ⟨others, rfl⟩ := starts [d] (by simpa using solid) ⟨rest, rfl⟩
    rfl

end Text

namespace Token

def isUnclosed (t : Token) : Bool :=
  match t.kind, t.raw.toList with
  | .string, delimiter :: body => body.getLast? != some delimiter
  | _, _ => false

/-- The texts that come of tokens as blanks are put in anywhere between them and around them, and as
blank tokens are exchanged for other blanks. Nothing can be put behind a string without its closing
quote: it would go on with it. -/
inductive Respaced : List Token → String → Prop
  | nothing {gap : String} (blanks : Text.AllBlank gap.toList) : Respaced [] gap
  | blank {t : Token} {rest : List Token} {gap text : String} (kind : t.kind = .whitespace)
      (blanks : Text.AllBlank gap.toList) (some : gap ≠ "") (later : Respaced rest text) :
      Respaced (t :: rest) (gap ++ text)
  | solid {t : Token} {rest : List Token} {gap text : String} (kind : t.kind ≠ .whitespace)
      (blanks : Text.AllBlank gap.toList) (closed : t.isUnclosed = true → text = "")
      (later : Respaced rest text) : Respaced (t :: rest) (gap ++ (t.raw ++ text))

/-- A text begins as the tokens do of which it is made, as far as there are no blanks. -/
theorem Respaced.startsAs {tokens : List Token} {other : String} (respaced : Respaced tokens other) :
    Text.StartsAs other.toList (joined tokens).toList := by
  induction respaced with
  | @nothing gap blanks =>
    cases front : gap.toList with
    | nil => exact fun s _ fits => fits.trans List.nil_prefix
    | cons c others =>
      rw [front] at blanks
      exact Text.startsAs_of_blank (blanks c List.mem_cons_self) _ _
  | @blank t rest gap text kind blanks some later ih =>
    cases front : gap.toList with
    | nil => exact absurd (String.toList_eq_nil_iff.1 front) some
    | cons c others =>
      rw [front] at blanks
      rw [String.toList_append, front]
      exact Text.startsAs_of_blank (blanks c List.mem_cons_self) _ _
  | @solid t rest gap text kind blanks closed later ih =>
    rw [String.toList_append, joined, String.toList_append, String.toList_append]
    cases front : gap.toList with
    | nil => exact ih.append t.raw.toList
    | cons c others =>
      rw [front] at blanks
      exact Text.startsAs_of_blank (blanks c List.mem_cons_self) _ _

end Token

theorem LongestRun.of_stretch {members : Char → Bool} {c : Char} {body after : List Char}
    (stretched : Lexicon.stretch c members (body ++ after) = (c :: body, after)) :
    LongestRun members body after := by
  obtain ⟨run, behind, whole, longest⟩ := exists_longestRun members (body ++ after)
  rw [whole, Lexicon.stretch_of_ended c longest.within longest.ended] at stretched
  obtain ⟨taken, rfl⟩ := Prod.mk.inj stretched
  obtain rfl := (List.cons.inj taken).2
  exact longest

/-- A string is the same one whatever is behind it, if it has its closing quote. -/
theorem Lexicon.enclosed_exchange {c : Char} {body after other : List Char}
    (taken : enclosed c (body ++ after) = (c :: body, after))
    (closed : body.getLast? ≠ some c → other = []) :
    enclosed c (body ++ other) = (c :: body, other) := by
  by_cases member : c ∈ body ++ after
  · obtain ⟨inner, behind, whole, inside⟩ := List.eq_append_cons_of_mem member
    rw [whole, enclosed_of_closed inside] at taken
    obtain ⟨same, rfl⟩ := Prod.mk.inj taken
    obtain rfl := (List.cons.inj same).2
    rw [List.append_assoc]
    exact enclosed_of_closed inside other
  · rw [enclosed_of_unclosed member] at taken
    obtain ⟨_, rfl⟩ := Prod.mk.inj taken
    rw [List.append_nil] at member
    have ended : other = [] := closed fun last => member (List.mem_of_getLast? last)
    rw [ended, List.append_nil, enclosed_of_unclosed member]

theorem Lexicon.exists_body_of_split? {l : Lexicon} {c : Char} {rest taken after : List Char}
    {kind : TokenKind} (split : l.split? c rest = some (kind, taken, after)) :
    ∃ body, taken = c :: body ∧ rest = body ++ after := by
  have ⟨nonempty, whole⟩ := Lexicon.split?_append split
  cases taken with
  | nil => exact absurd rfl nonempty
  | cons d body =>
    obtain ⟨rfl, rfl⟩ := List.cons.inj whole
    exact ⟨body, rfl, rfl⟩

namespace Config

variable {φ : Type} {config : Config φ} {c : Char} {rest taken after other : List Char}
  {kind : TokenKind}

theorem Spaced.isBlank_of_shape? (spaced : config.Spaced) {role body : CharRole}
    (shape : role.shape? = some (kind, body)) (solid : kind ≠ .whitespace)
    (member : config.classes body c = true) : Text.isBlank c = false := by
  rw [spaced.classes] at member
  cases role with
  | numberStart =>
    obtain ⟨rfl, rfl⟩ := Prod.mk.inj (Option.some.inj shape)
    rcases Bool.or_eq_true_iff.1 member with digit | point
    · exact CharClasses.isBlank_of_isDigit digit
    · rw [of_decide_eq_true point]
      decide
  | wordStart =>
    obtain ⟨rfl, rfl⟩ := Prod.mk.inj (Option.some.inj shape)
    exact CharClasses.isBlank_of_isWordChar member
  | whitespace =>
    obtain ⟨rfl, _⟩ := Prod.mk.inj (Option.some.inj shape)
    exact absurd rfl solid
  | _ => cases shape

theorem Spaced.firstRole? (spaced : config.Spaced) (blank : Text.isBlank c = true) :
    config.firstRole? c = some .whitespace := by
  have number : CharClasses.standard .numberStart c = false := by
    rw [← Bool.not_eq_true]
    intro digit
    rw [CharClasses.isBlank_of_isDigit digit] at blank
    cases blank
  have word : CharClasses.standard .wordStart c = false := by
    rw [← Bool.not_eq_true]
    intro letter
    rw [CharClasses.isBlank_of_isWordChar letter] at blank
    cases blank
  have string : CharClasses.standard .stringHead c = false := by
    rw [← Bool.not_eq_true]
    intro quote
    rcases Bool.or_eq_true_iff.1 quote with same | same <;>
      rw [of_decide_eq_true same] at blank <;> exact absurd blank (by decide)
  have white : CharClasses.standard .whitespace c = true := blank
  rw [Config.firstRole?, spaced.classes]
  simp only [List.find?_cons, number, string, word, white]

/-- Blanks up to what is not blank are one token. -/
theorem Spaced.split?_blank (spaced : config.Spaced) {gap : List Char}
    (blanks : Text.AllBlank (c :: gap)) (ended : ∀ d ∈ after.head?, Text.isBlank d = false) :
    config.lexicon.split? c (gap ++ after) = some (.whitespace, c :: gap, after) := by
  have blank := blanks c List.mem_cons_self
  have apart : config.NoSymbol (c :: (gap ++ after)) := by
    intro symbol known solid fits
    have starts := Text.startsAs_of_blank blank (gap ++ after) []
    have nothing := starts _ (spaced.plain symbol known) fits
    exact solid (String.toList_eq_nil_iff.1 (List.prefix_nil.1 nothing))
  have longest : LongestRun (config.classes .whitespace) gap after := by
    rw [spaced.classes]
    exact ⟨fun d member => blanks d (List.mem_cons_of_mem c member), ended⟩
  exact split?_of_shape apart (spaced.firstRole? blank) rfl longest

theorem Spaced.isBlank_of_split? (spaced : config.Spaced)
    (split : config.lexicon.split? c rest = some (kind, taken, after))
    (solid : kind ≠ .whitespace) : Text.isBlank c = false := by
  rw [← Bool.not_eq_true]
  intro blank
  obtain ⟨gap, others, rfl, longest⟩ := exists_longestRun Text.isBlank rest
  have blanks : Text.AllBlank (c :: gap) := List.forall_mem_cons.2 ⟨blank, longest.within⟩
  rw [spaced.split?_blank blanks longest.ended] at split
  obtain ⟨rfl, _⟩ := Prod.mk.inj (Option.some.inj split)
  exact solid rfl

/-- A token is found again in front of another text, where no symbol fits that did not fit before,
where a stretch goes on with nothing that it did not go on with, and where a string that is not closed
has nothing behind it. -/
theorem split?_exchange {body : List Char}
    (split : config.lexicon.split? c (body ++ after) = some (kind, c :: body, after))
    (symbols : ∀ symbol ∈ config.operators, symbol.toList <+: c :: (body ++ other) →
      symbol.toList <+: c :: (body ++ after))
    (ended : ∀ role members, CharRole.shape? role = some (kind, members) →
      ∀ d ∈ other.head?, config.classes members d = true → after.head? = some d)
    (closed : Token.isUnclosed ⟨kind, String.ofList (c :: body), 0⟩ = true → other = []) :
    config.lexicon.split? c (body ++ other) = some (kind, c :: body, other) := by
  cases found : config.lexicon.symbolAt? (c :: (body ++ after)) with
  | some symbol =>
    rw [Lexicon.split?_symbol found, Option.some.injEq, Prod.mk.injEq, Prod.mk.injEq] at split
    obtain ⟨rfl, spelled, _⟩ := split
    obtain ⟨known, solid, _, longest⟩ := symbolAt?_eq_some_iff.1 found
    have front : symbol.toList <+: c :: (body ++ other) := by
      rw [spelled, ← List.cons_append]
      exact List.prefix_append _ _
    have again : config.lexicon.symbolAt? (c :: (body ++ other)) = some symbol :=
      symbolAt?_eq_some_iff.2 ⟨known, solid, front, fun s known fits =>
        longest s known (symbols s (mem_symbols.1 known) fits)⟩
    have dropped : (c :: (body ++ other)).drop symbol.length = other := by
      rw [← List.cons_append, ← spelled, ← String.length_toList, List.drop_left]
    rw [Lexicon.split?_symbol again, spelled, dropped]
  | none =>
    have before : config.NoSymbol (c :: (body ++ after)) := noSymbol_iff.2 found
    have apart : config.NoSymbol (c :: (body ++ other)) := fun symbol known solid fits =>
      before symbol known solid (symbols symbol known fits)
    cases first : config.firstRole? c with
    | none =>
      rw [split?_of_bracket before first, Option.map_eq_some_iff] at split
      obtain ⟨bracket, which, same⟩ := split
      rw [Prod.mk.injEq, Prod.mk.injEq] at same
      obtain ⟨rfl, taken, _⟩ := same
      obtain rfl : [] = body := (List.cons.inj taken).2
      rw [split?_of_bracket apart first, which]
      rfl
    | some role =>
      rcases shape_of_firstRole? first with rfl | ⟨⟨kind', members⟩, shape⟩
      · rw [split?_of_string before first, Option.some.injEq, Prod.mk.injEq] at split
        obtain ⟨rfl, enclosed⟩ := split
        rw [split?_of_string apart first, Lexicon.enclosed_exchange enclosed]
        intro unclosed
        refine closed ?_
        simpa [Token.isUnclosed] using unclosed
      · rw [split?_of_role before first shape, Option.some.injEq, Prod.mk.injEq] at split
        obtain ⟨rfl, stretched⟩ := split
        have longest := LongestRun.of_stretch stretched
        refine split?_of_shape apart first shape ⟨longest.within, fun d head => ?_⟩
        rw [← Bool.not_eq_true]
        intro member
        rw [longest.ended d (ended role members shape d head member)] at member
        cases member

/-- A token but a blank one is found again in front of what begins alike up to its first blank. -/
theorem Spaced.split?_exchange (spaced : config.Spaced) {body : List Char}
    (split : config.lexicon.split? c (body ++ after) = some (kind, c :: body, after))
    (solid : kind ≠ .whitespace) (starts : Text.StartsAs other after)
    (closed : Token.isUnclosed ⟨kind, String.ofList (c :: body), 0⟩ = true → other = []) :
    config.lexicon.split? c (body ++ other) = some (kind, c :: body, other) := by
  refine Config.split?_exchange split (fun symbol known fits => ?_)
    (fun role members shape d head member => ?_) closed
  · exact starts.append (c :: body) _ (spaced.plain symbol known) fits
  · exact starts.head? head (spaced.isBlank_of_shape? shape solid member)

/-- Blanks before what is not blank are split off as one token, or as none. -/
theorem Spaced.exists_items_gap (spaced : config.Spaced) {gap : List Char}
    (blanks : Text.AllBlank gap) (after : List Char)
    (ended : ∀ d ∈ after.head?, Text.isBlank d = false) (position depth : Nat) :
    ∃ (front : List Token) (stop : Nat),
      Source.items (Lexer.mk config.lexicon (gap ++ after) position depth false) =
        front.map .ok ++ Source.items (Lexer.mk config.lexicon after stop depth false) ∧
      Token.spelling front = [] := by
  cases gap with
  | nil => exact ⟨[], position, rfl, rfl⟩
  | cons c others =>
    have split := spaced.split?_blank blanks ended
    have counted : Lexer.depthAfter? depth .whitespace = some depth := rfl
    have items := Lexer.items_of_split split counted position
    exact ⟨[_], _, items, Token.spelling_cons_of_blank rfl []⟩

/-- The tokens of a text that others were respaced to say what they say. -/
theorem Spaced.exists_items_respaced (spaced : config.Spaced) {tokens : List Token} {text : String}
    (respaced : Token.Respaced tokens text) {x y : Lexer} (yields : x.Yields tokens y)
    (spent : y.rest = []) (lexicon : x.lexicon = config.lexicon) {gap : List Char}
    (blanks : Text.AllBlank gap) (position : Nat) :
    ∃ others : List Token,
      Source.items (Lexer.mk config.lexicon (gap ++ text.toList) position x.depth false) =
        others.map .ok ∧ Token.spelling others = Token.spelling tokens := by
  -- Blanks are read in one token together with those before, so they are handed on as `gap`.
  induction respaced generalizing x gap position with
  | @nothing more blanks' =>
    have all : Text.AllBlank (gap ++ more.toList) := List.forall_mem_append.2 ⟨blanks, blanks'⟩
    obtain ⟨front, stop, items, said⟩ :=
      spaced.exists_items_gap all [] nofun position x.depth
    rw [List.append_nil, Lexer.items_of_nil, List.append_nil] at items
    exact ⟨front, items, said⟩
  | @blank t rest more text kind blanks' _ _ ih =>
    have all : Text.AllBlank (gap ++ more.toList) := List.forall_mem_append.2 ⟨blanks, blanks'⟩
    cases yields with
    | token here later =>
      obtain ⟨_, _, _, _, _, _, _, _, _, counted, rfl, rfl⟩ := Lexer.exists_of_next_ok here
      obtain rfl := kind
      obtain rfl := Option.some.inj counted
      obtain ⟨others, items, said⟩ := ih later lexicon all position
      rw [String.toList_append, ← List.append_assoc, Token.spelling_cons_of_blank rfl]
      exact ⟨others, items, said⟩
  | @solid t rest more text kind blanks' closed later' ih =>
    have all : Text.AllBlank (gap ++ more.toList) := List.forall_mem_append.2 ⟨blanks, blanks'⟩
    cases yields with
    | token here later =>
      obtain ⟨c, _, taken, after, kind', next, _, _, split, counted, rfl, rfl⟩ :=
        Lexer.exists_of_next_ok here
      have solid : kind' ≠ .whitespace := kind
      rw [lexicon] at split
      obtain ⟨body, rfl, rfl⟩ := Lexicon.exists_body_of_split? split
      have starts : Text.StartsAs text.toList after := by
        have text := later.text
        rw [spent, String.ofList_nil, String.append_empty] at text
        have starts := later'.startsAs
        rwa [text, String.toList_ofList] at starts
      have again := spaced.split?_exchange split solid starts fun unclosed => by
        rw [closed unclosed]
        rfl
      have ended : ∀ d ∈ (c :: (body ++ text.toList)).head?, Text.isBlank d = false := by
        rintro d ⟨rfl⟩
        exact spaced.isBlank_of_split? split solid
      obtain ⟨front, stop, items, said⟩ := spaced.exists_items_gap all _ ended position x.depth
      let found : Token := ⟨kind', String.ofList (c :: body), stop⟩
      have token := Lexer.items_of_split again counted stop
      obtain ⟨others, remaining, said'⟩ := ih later lexicon Text.allBlank_nil found.stop
      have whole : gap ++ (more ++ (String.ofList (c :: body) ++ text)).toList =
          gap ++ more.toList ++ c :: (body ++ text.toList) := by
        simp only [String.toList_append, String.toList_ofList, List.append_assoc, List.cons_append]
      refine ⟨front ++ found :: others, ?_, ?_⟩
      · rw [whole, items, token, List.map_append, List.map_cons]
        exact congrArg (front.map .ok ++ .ok found :: ·) remaining
      · rw [Token.spelling_append, said, List.nil_append, Token.spelling_cons_of_solid solid,
          Token.spelling_cons_of_solid solid, said']

/-- Putting in and exchanging blanks changes nothing that the tokens of a source say. -/
theorem Spaced.exists_tokens_respaced (spaced : config.Spaced) {source text : String}
    {tokens : List Token} (split : Source.items (config.tokens source) = tokens.map .ok)
    (respaced : Token.Respaced tokens text) :
    ∃ others : List Token, Source.items (config.tokens text) = others.map .ok ∧
      Token.spelling others = Token.spelling tokens := by
  obtain ⟨y, yields, ended⟩ := Lexer.exists_yields_of_items (split.trans (List.append_nil _).symm)
  have spent : y.rest = [] := by
    cases left : y.rest with
    | nil => rfl
    | cons c rest =>
      obtain ⟨last, nothing⟩ := Source.exists_of_items_nil ended
      have running : y.failed = false := yields.running
      simp [Source.pull, Lexer.next, running, left] at nothing
  exact spaced.exists_items_respaced respaced yields spent rfl Text.allBlank_nil 0

theorem spaced_standard : (standard : Config φ).Spaced := by
  refine ⟨rfl, fun symbol known c member => ?_⟩
  have all := Standard.blank_not_mem_symbol symbol
    (Standard.mem_symbols_standard.1 (mem_symbols.2 known))
  simpa using List.all_eq_true.1 all c member

/-- Where blanks end tokens, putting in and exchanging blanks between the tokens of a source changes
nothing: the tokens say the same, and the same program is made of them, or there is the same fault
at the corresponding token. -/
theorem compile_respaced (spaced : config.Spaced) {source text : String} {tokens : List Token}
    (split : Source.items (config.tokens source) = tokens.map .ok)
    (respaced : Token.Respaced tokens text) :
    ∃ others : List Token, Source.items (config.tokens text) = others.map .ok ∧
      Token.spelling others = Token.spelling tokens ∧
      ((∃ program, config.compile source = .ok program ∧ config.compile text = .ok program) ∨
        ∃ raise ∈ [Fault.unmatchedParen, .unclosedDelimiter], ∃ (place : Nat) (t u : Token),
          (Token.solid tokens)[place]? = some t ∧ (Token.solid others)[place]? = some u ∧
          config.compile source = .error (raise t.start) ∧
          config.compile text = .error (raise u.start)) := by
  obtain ⟨others, again, same⟩ := spaced.exists_tokens_respaced split respaced
  refine ⟨others, again, same, ?_⟩
  have ⟨program, faults⟩ := Yard.run_of_spelling (p := config.precedence) same
  rcases faults with ⟨clean, clean'⟩ | ⟨raise, member, place, t, u, found, found', failed, failed'⟩
  · left
    refine ⟨(Yard.empty.run config.precedence (tokens.map .ok)).1, ?_, ?_⟩
    · rw [compile_eq, split, clean]
      rfl
    · rw [compile_eq, again, clean', program]
      rfl
  · right
    have here : config.compile source = .error (raise t.start) := by
      rw [compile_eq_error_iff, split, failed]
    have there : config.compile text = .error (raise u.start) := by
      rw [compile_eq_error_iff, again, failed']
    refine ⟨raise, ?_, place, t, u, found, found', here, there⟩
    simp only [Yard.misplacements, List.mem_cons, List.not_mem_nil, or_false] at member
    rcases member with rfl | rfl | rfl
    · exact List.mem_cons_self
    · exact List.mem_cons_of_mem _ List.mem_cons_self
    · -- The lexer would have had to say so.
      obtain ⟨front, items⟩ := items_of_compile_mismatched here
      have inside : .error (.mismatchedBracket t.start) ∈ Source.items (config.tokens source) := by
        rw [items]
        exact List.mem_append_right _ List.mem_cons_self
      rw [split] at inside
      simp at inside

/-- With other blanks around its tokens `(a` and a string that is not closed say the same, and the `(`
is at fault as before. -/
theorem compile_respaced_unclosed :
    let config : Config Unit := standard
    let tokens : List Token :=
      [⟨.openParen, "(", 0⟩, ⟨.word, "a", 1⟩, ⟨.whitespace, " ", 2⟩, ⟨.string, "\x22b c", 3⟩]
    (config.Spaced ∧ Source.items (config.tokens "(a \x22b c") = tokens.map .ok ∧
      Token.Respaced tokens "\t(\xa0a\n\n\x22b c") ∧
    ∃ others : List Token,
      Source.items (config.tokens "\t(\xa0a\n\n\x22b c") = others.map .ok ∧
        Token.spelling others = [(.openParen, "("), (.word, "a"), (.string, "\x22b c")] ∧
        ∃ place, config.compile "\t(\xa0a\n\n\x22b c" = .error (.unclosedDelimiter place) := by
  intro config tokens
  have spaced : config.Spaced := spaced_standard
  let left (rest : List Char) (position : Nat) : Lexer :=
    ⟨⟨Standard.symbolsInOrder, .standard⟩, rest, position, 0, false⟩
  have yields : (config.tokens "(a \x22b c").Yields tokens (left [] 7) := by
    rw [Config.tokens, Standard.lexicon_eq rfl]
    exact .token (y := left "a \x22b c".toList 1) (by rfl) <|
      .token (y := left " \x22b c".toList 2) (by rfl) <|
      .token (y := left "\x22b c".toList 3) (by rfl) <|
      .token (by rfl) (.nothing _)
  have split : Source.items (config.tokens "(a \x22b c") = tokens.map .ok := by
    rw [yields.items, Source.items_of_pull_none rfl, List.append_nil]
  have blanks {gap : String} (all : gap.toList.all Text.isBlank = true) :
      Text.AllBlank gap.toList := List.all_eq_true.1 all
  have respaced : Token.Respaced tokens
      ("\t" ++ ("(" ++ ("\xa0" ++ ("a" ++ ("\n\n" ++ ("" ++ ("\x22b c" ++ ""))))))) :=
    .solid (by decide) (blanks rfl) (by decide) <|
    .solid (by decide) (blanks rfl) (by decide) <|
    .blank rfl (blanks rfl) (by decide) <|
    .solid (by decide) (blanks rfl) (fun _ => rfl) <|
    .nothing (blanks rfl)
  refine ⟨⟨spaced, split, respaced⟩, ?_⟩
  obtain ⟨others, items, said, compiled⟩ := compile_respaced spaced split respaced
  refine ⟨others, items, said, ?_⟩
  have failed : config.compile "(a \x22b c" = .error (.unclosedDelimiter 0) := by
    rw [compile_eq_error_iff, split]
    rfl
  rw [failed] at compiled
  rcases compiled with ⟨_, clean, _⟩ | ⟨raise, member, _, t, u, _, _, here, there⟩
  · cases clean
  · simp only [List.mem_cons, List.not_mem_nil, or_false] at member
    rcases member with rfl | rfl
    · cases here
    · exact ⟨u.start, there⟩

end Config

end Reckoner
