import Reckoner.Proofs.Lexicon.Standard
import Reckoner.Proofs.Token.Coverage

set_option autoImplicit false

namespace Reckoner

/-- The kind of the tokens that are a character of this role and a stretch, and the role of the
characters in the stretch. -/
def CharRole.shape? : CharRole → Option (TokenKind × CharRole)
  | .numberStart => some (.number, .numberBody)
  | .wordStart => some (.word, .wordBody)
  | .whitespace => some (.whitespace, .whitespace)
  | _ => none

/-- All the members of a class that a text begins with, and what follows them. -/
structure LongestRun (members : Char → Bool) (run after : List Char) : Prop where
  within : ∀ c ∈ run, members c = true
  ended : ∀ c ∈ after.head?, members c = false

theorem exists_longestRun (members : Char → Bool) (rest : List Char) :
    ∃ run after, rest = run ++ after ∧ LongestRun members run after := by
  refine ⟨rest.takeWhile members, rest.dropWhile members,
    List.takeWhile_append_dropWhile.symm, ?_, ?_⟩
  · exact List.all_eq_true.1 List.all_takeWhile
  · intro c head
    have failed := List.head?_dropWhile_not members rest
    rwa [Option.mem_def.1 head] at failed

namespace Token

def count (kind : TokenKind) (tokens : List Token) : Nat :=
  tokens.countP fun t => t.kind = kind

theorem count_cons (kind : TokenKind) (t : Token) (rest : List Token) :
    count kind (t :: rest) = count kind rest + if t.kind = kind then 1 else 0 := by
  simp [count, List.countP_cons]

end Token

namespace Lexer

variable {x y : Lexer} {tokens : List Token}

theorem Yields.lexicon (yields : Yields x tokens y) : y.lexicon = x.lexicon := by
  induction yields with
  | nothing x => rfl
  | token here _ ih =>
    obtain ⟨_, _, _, _, _, _, _, _, _, _, _, rfl⟩ := exists_of_next_ok here
    exact ih

theorem eq_of_depthAfter? {before after : Nat} {kind : TokenKind}
    (counted : depthAfter? before kind = some after) :
    after + (if kind = .closeBracket then 1 else 0) =
      before + if kind = .openBracket then 1 else 0 := by
  cases kind with
  | closeBracket =>
    simp only [depthAfter?, Option.ite_none_left_eq_some, Option.some.injEq] at counted
    show after + 1 = before
    omega
  | openBracket => exact (Option.some.inj counted).symm
  | _ => exact (Option.some.inj counted).symm

theorem Yields.depth (yields : Yields x tokens y) :
    y.depth + Token.count .closeBracket tokens = x.depth + Token.count .openBracket tokens := by
  induction yields with
  | nothing x => rfl
  | @token x y z t rest here _ ih =>
    obtain ⟨_, _, _, _, kind, depth, _, _, _, counted, rfl, rfl⟩ := exists_of_next_ok here
    have step := eq_of_depthAfter? counted
    have later : z.depth + Token.count .closeBracket rest =
        depth + Token.count .openBracket rest := ih
    rw [Token.count_cons, Token.count_cons]
    show z.depth + (_ + if kind = .closeBracket then 1 else 0) =
      x.depth + (_ + if kind = .openBracket then 1 else 0)
    omega

variable {c : Char} {rest taken after : List Char} {kind : TokenKind}

theorem read_of_split? (found : x.lexicon.split? c rest = some (kind, taken, after))
    (opened : kind = .closeBracket → x.depth ≠ 0) :
    (x.read c rest).1 = .ok ⟨kind, String.ofList taken, x.position⟩ := by
  have counted : ∃ depth, depthAfter? x.depth kind = some depth := by
    cases kind with
    | closeBracket => exact ⟨x.depth - 1, if_neg (opened rfl)⟩
    | openBracket => exact ⟨x.depth + 1, rfl⟩
    | _ => exact ⟨x.depth, rfl⟩
  obtain ⟨depth, counted⟩ := counted
  simp only [read, found, counted]

theorem read_of_closed (found : x.lexicon.split? c rest = some (.closeBracket, taken, after))
    (closed : x.depth = 0) : (x.read c rest).1 = .error (.mismatchedBracket x.position) := by
  simp only [read, found, depthAfter?, closed, if_true]

theorem read_of_split?_none (found : x.lexicon.split? c rest = none) :
    (x.read c rest).1 = .error (.unrecognizedCharacter c x.position) := by
  simp only [read, found]

end Lexer

namespace Config

variable {φ : Type}

/-- The first role, in the order in which they are tried, that a character has. -/
def firstRole? (config : Config φ) (c : Char) : Option CharRole :=
  [CharRole.numberStart, .stringHead, .wordStart, .whitespace].find? (config.classes · c)

/-- Whether no symbol of an operator stands in front of a text. The empty one does not count. -/
def NoSymbol (config : Config φ) (cs : List Char) : Prop :=
  ∀ symbol ∈ config.operators, symbol ≠ "" → ¬ symbol.toList <+: cs

/-- What a text begins with that stands at `position` and comes after the tokens `before`. -/
inductive Begins (config : Config φ) (before : List Token) (position : Nat) :
    List Char → Except Fault Token → Prop
  /-- A symbol, if each other one in front of the text is shorter. -/
  | operator {symbol : String} {cs : List Char} (known : symbol ∈ config.operators)
      (solid : symbol ≠ "") (front : symbol.toList <+: cs)
      (longest : ∀ other ∈ config.operators, other ≠ symbol → other.toList <+: cs →
        other.length < symbol.length) :
      Begins config before position cs (.ok ⟨.operator, symbol, position⟩)
  /-- A number, a word or a blank stretch, whatever symbols there are in the middle of it. -/
  | stretch {c : Char} {run after : List Char} {role body : CharRole} {kind : TokenKind}
      (apart : config.NoSymbol (c :: (run ++ after))) (first : config.firstRole? c = some role)
      (shape : role.shape? = some (kind, body))
      (longest : LongestRun (config.classes body) run after) :
      Begins config before position (c :: (run ++ after))
        (.ok ⟨kind, String.ofList (c :: run), position⟩)
  | closedString {c : Char} {body after : List Char}
      (apart : config.NoSymbol (c :: (body ++ c :: after)))
      (first : config.firstRole? c = some .stringHead) (inside : c ∉ body) :
      Begins config before position (c :: (body ++ c :: after))
        (.ok ⟨.string, String.ofList (c :: (body ++ [c])), position⟩)
  | openString {c : Char} {body : List Char} (apart : config.NoSymbol (c :: body))
      (first : config.firstRole? c = some .stringHead) (inside : c ∉ body) :
      Begins config before position (c :: body)
        (.ok ⟨.string, String.ofList (c :: body), position⟩)
  | bracket {c : Char} {rest : List Char} {kind : TokenKind} (apart : config.NoSymbol (c :: rest))
      (first : config.firstRole? c = none)
      (which : (c, kind) ∈
        [('(', TokenKind.openParen), (')', .closeParen), ('[', .openBracket)]) :
      Begins config before position (c :: rest) (.ok ⟨kind, String.ofList [c], position⟩)
  | closeBracket {rest : List Char} (apart : config.NoSymbol (']' :: rest))
      (first : config.firstRole? ']' = none)
      (opened : Token.count .closeBracket before < Token.count .openBracket before) :
      Begins config before position (']' :: rest) (.ok ⟨.closeBracket, "]", position⟩)
  | mismatched {rest : List Char} (apart : config.NoSymbol (']' :: rest))
      (first : config.firstRole? ']' = none)
      (closed : Token.count .openBracket before ≤ Token.count .closeBracket before) :
      Begins config before position (']' :: rest) (.error (.mismatchedBracket position))
  | unrecognized {c : Char} {rest : List Char} (apart : config.NoSymbol (c :: rest))
      (first : config.firstRole? c = none) (other : c ∉ ['(', ')', '[', ']']) :
      Begins config before position (c :: rest) (.error (.unrecognizedCharacter c position))

variable {config : Config φ} {c : Char} {cs : List Char}

theorem noSymbol_iff : config.NoSymbol cs ↔ config.lexicon.symbolAt? cs = none := by
  rw [symbolAt?_eq_none_iff]
  exact forall_congr' fun symbol => by rw [mem_symbols]

/-- The symbol that a text begins with has more characters than each other one in front of it. -/
theorem symbolAt?_eq_some_iff_length_lt {symbol : String} :
    config.lexicon.symbolAt? cs = some symbol ↔
      symbol ∈ config.operators ∧ symbol ≠ "" ∧ symbol.toList <+: cs ∧
        ∀ other ∈ config.operators, other ≠ symbol → other.toList <+: cs →
          other.length < symbol.length := by
  rw [symbolAt?_eq_some_iff, mem_symbols]
  refine and_congr_right fun _ => and_congr_right fun _ => and_congr_right fun front => ?_
  refine forall_congr' fun other => ?_
  rw [mem_symbols, ← String.length_toList, ← String.length_toList]
  refine forall_congr' fun _ => ?_
  constructor
  · intro size different fits
    rcases List.prefix_or_prefix_of_prefix front fits with beyond | within
    · exact absurd (Lexicon.eq_of_isPrefix beyond (size fits)).symm different
    · have even : other.toList.length ≠ symbol.toList.length := by
        intro even
        exact different (String.toList_inj.1 (within.eq_of_length even))
      have shorter := within.length_le
      omega
  · intro longest fits
    by_cases same : other = symbol
    · exact Nat.le_of_eq (congrArg String.utf8ByteSize same)
    · have shorter := Nat.le_of_lt (longest same fits)
      exact Lexicon.utf8ByteSize_le_of_isPrefix
        (List.prefix_of_prefix_length_le fits front shorter)

theorem shape_of_firstRole? {role : CharRole} (first : config.firstRole? c = some role) :
    role = .stringHead ∨ ∃ shape, role.shape? = some shape := by
  have tried := List.mem_of_find?_eq_some first
  cases role with
  | stringHead => exact .inl rfl
  | wordBody => exact absurd tried (by decide)
  | numberBody => exact absurd tried (by decide)
  | _ => exact .inr ⟨_, rfl⟩

/-- Where no symbol stands in front of a text, the first role of its first character decides. -/
theorem split?_of_noSymbol {rest : List Char} (apart : config.NoSymbol (c :: rest)) :
    config.lexicon.split? c rest =
      match config.firstRole? c with
      | none => (Lexicon.bracket? c).map fun kind => (kind, [c], rest)
      | some .stringHead => some (.string, Lexicon.enclosed c rest)
      | some role => role.shape?.map fun (kind, body) =>
          (kind, Lexicon.stretch c (config.classes body) rest) := by
  have passed := noSymbol_iff.1 apart
  have classes : config.lexicon.classes = config.classes := rfl
  simp only [Lexicon.split?, passed, firstRole?, List.find?_cons, classes]
  cases config.classes .numberStart c with
  | true => rfl
  | false =>
    cases config.classes .stringHead c with
    | true => rfl
    | false =>
      cases config.classes .wordStart c with
      | true => rfl
      | false => cases config.classes .whitespace c <;> rfl

theorem split?_of_role {rest : List Char} {role body : CharRole} {kind : TokenKind}
    (apart : config.NoSymbol (c :: rest)) (first : config.firstRole? c = some role)
    (shape : role.shape? = some (kind, body)) :
    config.lexicon.split? c rest = some (kind, Lexicon.stretch c (config.classes body) rest) := by
  rw [split?_of_noSymbol apart, first]
  cases role <;> simp_all [CharRole.shape?]

theorem split?_of_shape {run after : List Char} {role body : CharRole} {kind : TokenKind}
    (apart : config.NoSymbol (c :: (run ++ after))) (first : config.firstRole? c = some role)
    (shape : role.shape? = some (kind, body))
    (longest : LongestRun (config.classes body) run after) :
    config.lexicon.split? c (run ++ after) = some (kind, c :: run, after) := by
  rw [split?_of_role apart first shape,
    Lexicon.stretch_of_ended c longest.within longest.ended]

theorem split?_of_bracket {rest : List Char} (apart : config.NoSymbol (c :: rest))
    (first : config.firstRole? c = none) :
    config.lexicon.split? c rest = (Lexicon.bracket? c).map fun kind => (kind, [c], rest) := by
  rw [split?_of_noSymbol apart, first]

theorem split?_of_string {rest : List Char} (apart : config.NoSymbol (c :: rest))
    (first : config.firstRole? c = some .stringHead) :
    config.lexicon.split? c rest = some (.string, Lexicon.enclosed c rest) := by
  rw [split?_of_noSymbol apart, first]

theorem not_begins_nil {before : List Token} {position : Nat} {item : Except Fault Token} :
    ¬ config.Begins before position [] item := by
  intro begins
  cases begins with
  | operator known solid front longest =>
    exact solid (String.toList_eq_nil_iff.1 (List.prefix_nil.1 front))

theorem read_of_begins {x : Lexer} {before : List Token} {rest : List Char}
    {item : Except Fault Token} (lexicon : x.lexicon = config.lexicon)
    (depth : x.depth + Token.count .closeBracket before = Token.count .openBracket before)
    (begins : config.Begins before x.position (c :: rest) item) : (x.read c rest).1 = item := by
  obtain ⟨l, front, position, opened, failed⟩ := x
  obtain rfl : l = config.lexicon := lexicon
  cases begins with
  | operator known solid front longest =>
    have found := symbolAt?_eq_some_iff_length_lt.2 ⟨known, solid, front, longest⟩
    rw [Lexer.read_of_split? (Lexicon.split?_symbol found) nofun, String.ofList_toList]
  | @stretch _ _ _ role _ _ apart first shape longest =>
    refine Lexer.read_of_split? (split?_of_shape apart first shape longest) ?_
    rintro rfl
    cases role <;> cases shape
  | closedString apart first inside =>
    have split := split?_of_string apart first
    rw [Lexicon.enclosed_of_closed inside] at split
    exact Lexer.read_of_split? split nofun
  | openString apart first inside =>
    have split := split?_of_string apart first
    rw [Lexicon.enclosed_of_unclosed inside] at split
    exact Lexer.read_of_split? split nofun
  | bracket apart first which =>
    have split := split?_of_bracket apart first
    simp only [List.mem_cons, Prod.mk.injEq, List.not_mem_nil, or_false] at which
    rcases which with ⟨rfl, rfl⟩ | ⟨rfl, rfl⟩ | ⟨rfl, rfl⟩ <;>
      exact Lexer.read_of_split? split nofun
  | closeBracket apart first more =>
    have positive : opened ≠ 0 := by
      simp only at depth
      omega
    exact Lexer.read_of_split? (split?_of_bracket apart first) fun _ => positive
  | mismatched apart first closed =>
    have zero : opened = 0 := by
      simp only at depth
      omega
    exact Lexer.read_of_closed (split?_of_bracket apart first) zero
  | unrecognized apart first other =>
    have plain : Lexicon.bracket? c = none := by
      rw [← Option.not_isSome_iff_eq_none, Option.isSome_iff_exists]
      rintro ⟨kind, bracket⟩
      exact other (by simpa using Lexicon.eq_of_bracket? bracket)
    have split := split?_of_bracket apart first
    rw [plain] at split
    exact Lexer.read_of_split?_none split

theorem exists_begins (config : Config φ) (before : List Token) (position : Nat) (c : Char)
    (rest : List Char) : ∃ item, config.Begins before position (c :: rest) item := by
  cases found : config.lexicon.symbolAt? (c :: rest) with
  | some symbol =>
    obtain ⟨known, solid, front, longest⟩ := symbolAt?_eq_some_iff_length_lt.1 found
    exact ⟨_, .operator known solid front longest⟩
  | none =>
    have apart := noSymbol_iff.2 found
    cases first : config.firstRole? c with
    | some role =>
      rcases shape_of_firstRole? first with rfl | ⟨⟨kind, body⟩, shape⟩
      · by_cases member : c ∈ rest
        · obtain ⟨body, after, rfl, inside⟩ := List.eq_append_cons_of_mem member
          exact ⟨_, .closedString apart first inside⟩
        · exact ⟨_, .openString apart first member⟩
      · obtain ⟨run, after, rfl, longest⟩ := exists_longestRun (config.classes body) rest
        exact ⟨_, .stretch apart first shape longest⟩
    | none =>
      by_cases other : c ∈ ['(', ')', '[', ']']
      · simp only [List.mem_cons, List.not_mem_nil, or_false] at other
        rcases other with rfl | rfl | rfl | rfl
        · exact ⟨_, .bracket apart first List.mem_cons_self⟩
        · exact ⟨_, .bracket apart first (List.mem_cons_of_mem _ List.mem_cons_self)⟩
        · exact ⟨_, .bracket apart first
            (List.mem_cons_of_mem _ (List.mem_cons_of_mem _ List.mem_cons_self))⟩
        · by_cases opened : Token.count .closeBracket before < Token.count .openBracket before
          · exact ⟨_, .closeBracket apart first opened⟩
          · exact ⟨_, .mismatched apart first (by omega)⟩
      · exact ⟨_, .unrecognized apart first other⟩

/-- Wherever a lexer stands after the tokens of a source so far, it yields nothing just where the
source is over, and otherwise the one thing that the rest of the source begins with. -/
theorem next_eq_some_iff {source : String} {tokens : List Token} {y : Lexer}
    (yields : (config.tokens source).Yields tokens y) :
    Token.joined tokens ++ String.ofList y.rest = source ∧
      y.position = (Token.joined tokens).utf8ByteSize ∧ (y.next.1 = none ↔ y.rest = []) ∧
      ∀ item, y.next.1 = some item ↔ config.Begins tokens y.position y.rest item := by
  have covers : y.Covers source tokens := yields.covers
  have lexicon : y.lexicon = config.lexicon := yields.lexicon
  have running : y.failed = false := yields.running
  have depth : y.depth + Token.count .closeBracket tokens = Token.count .openBracket tokens := by
    rw [yields.depth]
    exact Nat.zero_add _
  refine ⟨covers.text, covers.position, ?_⟩
  cases front : y.rest with
  | nil =>
    have nothing : y.next.1 = none := by simp [Lexer.next, running, front]
    refine ⟨⟨fun _ => rfl, fun _ => nothing⟩, fun item => ⟨?_, ?_⟩⟩
    · intro yielded
      rw [nothing] at yielded
      cases yielded
    · intro begins
      exact absurd begins not_begins_nil
  | cons c rest =>
    have pulled : y.next.1 = some (y.read c rest).1 := by simp [Lexer.next, running, front]
    refine ⟨⟨?_, fun ended => absurd ended (List.cons_ne_nil c rest)⟩, fun item => ⟨?_, ?_⟩⟩
    · intro nothing
      rw [pulled] at nothing
      cases nothing
    · intro yielded
      obtain ⟨other, begins⟩ := exists_begins config tokens y.position c rest
      have same : some other = some item := by
        rw [← yielded, pulled, read_of_begins lexicon depth begins]
      rwa [← Option.some.inj same]
    · intro begins
      rw [pulled, read_of_begins lexicon depth begins]

/-- In `a>=[b]` a word whose characters are all but `]` takes the symbol and the bracket in it, so the
`]` closes nothing. -/
theorem next_eq_some_iff_mismatched :
    let config : Config Unit := .build [.charClass .wordBody (· != ']')]
    ∃ y, (config.tokens "a>=[b]").Yields [⟨.word, "a>=[b", 0⟩] y ∧
      y.next.1 = some (.error (.mismatchedBracket 5)) := by
  intro config
  have lexicon : config.lexicon = ⟨Standard.symbolsInOrder, config.classes⟩ :=
    Standard.lexicon_eq rfl
  have here : (config.tokens "a>=[b]").next =
      (some (.ok ⟨.word, "a>=[b", 0⟩), ⟨config.lexicon, [']'], 5, 0, false⟩) := by
    rw [Config.tokens, lexicon]
    rfl
  have yields := Lexer.Yields.token here (.nothing _)
  refine ⟨_, yields, ?_⟩
  have apart : config.NoSymbol [']'] := noSymbol_iff.2 (by rw [lexicon]; rfl)
  exact ((next_eq_some_iff yields).2.2.2 _).2 (.mismatched apart rfl (Nat.le_refl 0))

end Config

end Reckoner
