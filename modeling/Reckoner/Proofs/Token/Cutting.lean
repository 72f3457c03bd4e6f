import Reckoner.Proofs.Token.Respacing

set_option autoImplicit false

/-!
A source cut in two where one of its tokens ends.

A token is found again with the source cut off somewhere behind it: a symbol or a stretch that could
go on now could go on before, and a string without its closing quote had nothing behind it to be cut
off. So the first part has the tokens that it had within the source.

The second part is read as it was within the source, but by a lexer that knows nothing of the
brackets that are open where the cut is. It goes on up to the first `]` that closes one of them.
-/

namespace Reckoner

namespace Lexicon

variable {l : Lexicon} {c : Char} {rest taken after : List Char} {kind : TokenKind}

theorem after_of_unclosed {body : List Char} (split : l.split? c rest = some (kind, c :: body, after))
    (unclosed : Token.isUnclosed ⟨kind, String.ofList (c :: body), 0⟩ = true) : after = [] := by
  have string : kind = .string := by
    cases kind <;> first | rfl | cases unclosed
  subst string
  have last : body.getLast? ≠ some c := by simpa [Token.isUnclosed] using unclosed
  have taken := (split?_string_enclosed split).2
  by_cases member : c ∈ rest
  · obtain ⟨inner, behind, rfl, inside⟩ := List.eq_append_cons_of_mem member
    rw [enclosed_of_closed inside] at taken
    obtain rfl := (List.cons.inj (Prod.mk.inj taken).1).2
    exact absurd List.getLast?_concat last
  · rw [enclosed_of_unclosed member] at taken
    exact (Prod.mk.inj taken).2.symm

end Lexicon

theorem Config.split?_cut {φ : Type} {config : Config φ} {c : Char} {body kept cut : List Char}
    {kind : TokenKind}
    (split : config.lexicon.split? c (body ++ (kept ++ cut)) = some (kind, c :: body, kept ++ cut)) :
    config.lexicon.split? c (body ++ kept) = some (kind, c :: body, kept) := by
  refine split?_exchange split (fun symbol _ fits => ?_) (fun _ _ _ d head _ => ?_)
    (fun unclosed => ?_)
  · refine fits.trans ⟨cut, ?_⟩
    rw [List.cons_append, List.append_assoc]
  · rw [List.head?_append, Option.mem_def.1 head]
    rfl
  · exact (List.append_eq_nil_iff.1 (Lexicon.after_of_unclosed split unclosed)).1

namespace Lexer

variable {x y : Lexer} {tokens : List Token}

theorem Yields.cut {φ : Type} {config : Config φ} (yields : Yields x tokens y)
    (lexicon : x.lexicon = config.lexicon) :
    Yields { x with rest := (Token.joined tokens).toList } tokens { y with rest := [] } := by
  induction yields with
  | nothing x =>
    have nothing : (Token.joined []).toList = [] := String.toList_empty
    rw [nothing]
    exact .nothing _
  | @token x y z t rest here later ih =>
    obtain ⟨c, _, taken, after, kind, depth, running, _, split, counted, rfl, rfl⟩ :=
      exists_of_next_ok here
    obtain ⟨body, rfl, rfl⟩ := Lexicon.exists_body_of_split? split
    have text : after = (Token.joined rest).toList ++ z.rest := by
      have text := congrArg String.toList later.text
      rw [String.toList_append, String.toList_ofList, String.toList_ofList] at text
      exact text.symm
    rw [lexicon, text] at split
    have front : (Token.joined (⟨kind, String.ofList (c :: body), x.position⟩ :: rest)).toList =
        c :: (body ++ (Token.joined rest).toList) := by
      rw [Token.joined, String.toList_append, String.toList_ofList, List.cons_append]
    have again := Config.split?_cut split
    rw [← lexicon] at again
    exact .token (next_of_split running front again counted) (ih lexicon)

/-- What comes of a lexer, `place` bytes further right. -/
def further (place : Nat) : Except Fault Token → Except Fault Token
  | .ok t => .ok (t.relocate (· + place))
  | .error fault => .error (fault.relocate (· + place))

theorem map_further (place : Nat) (tokens : List Token) :
    (tokens.map .ok).map (further place) = (tokens.map (Token.relocate (· + place))).map .ok := by
  rw [List.map_map, List.map_map]
  rfl

/-- A lexer `place` bytes further right, and within `depth` more brackets. -/
def moved (place depth : Nat) (x : Lexer) : Lexer :=
  { x with position := x.position + place, depth := x.depth + depth }

theorem depthAfter?_add {before after : Nat} {kind : TokenKind}
    (counted : depthAfter? before kind = some after) (more : Nat) :
    depthAfter? (before + more) kind = some (after + more) := by
  cases kind with
  | closeBracket =>
    simp only [depthAfter?, Option.ite_none_left_eq_some, Option.some.injEq] at counted ⊢
    omega
  | openBracket =>
    obtain rfl := Option.some.inj counted
    exact congrArg some (Nat.add_right_comm before more 1)
  | _ => exact congrArg (fun depth => some (depth + more)) (Option.some.inj counted)

theorem Yields.moved (yields : Yields x tokens y) (place depth : Nat) :
    Yields (x.moved place depth) (tokens.map (Token.relocate (· + place)))
      (y.moved place depth) := by
  induction yields with
  | nothing x => exact .nothing _
  | @token x y z t rest here later ih =>
    obtain ⟨c, _, taken, after, kind, next, running, front, split, counted, rfl, rfl⟩ :=
      exists_of_next_ok here
    have again := next_of_split (x := x.moved place depth) running front split
      (depthAfter?_add counted depth)
    refine .token again ?_
    have stop (start : Nat) :
        (Token.mk kind (String.ofList taken) (start + place)).stop =
          (Token.mk kind (String.ofList taken) start).stop + place :=
      Nat.add_right_comm ..
    simp only [Lexer.moved, stop] at ih ⊢
    exact ih

/-- A lexer without another token ends further right as it does here. But where more brackets are open
the `]` that is one too many here closes one of them. -/
theorem items_moved_of_ended (running : y.failed = false) (ended : ∀ t, y.next.1 ≠ some (.ok t))
    (place depth : Nat) :
    Source.items (y.moved place depth) = (Source.items y).map (further place) ∨
      depth ≠ 0 ∧ y.depth = 0 ∧ Source.items y = [.error (.mismatchedBracket y.position)] ∧
        ∃ close others, close.kind = .closeBracket ∧ close.start = y.position + place ∧
          Source.items (y.moved place depth) = .ok close :: others := by
  obtain ⟨l, left, position, level, failed⟩ := y
  obtain rfl : failed = false := running
  cases left with
  | nil =>
    left
    rw [moved, items_of_nil, items_of_nil]
    rfl
  | cons c rest =>
    cases split : l.split? c rest with
    | none =>
      left
      rw [moved, items_of_unrecognized split, items_of_unrecognized split]
      rfl
    | some found =>
      obtain ⟨kind, taken, after⟩ := found
      cases counted : depthAfter? level kind with
      | some next =>
        have token := next_of_split (x := ⟨l, c :: rest, position, level, false⟩) rfl rfl split
          counted
        exact absurd (congrArg Prod.fst token) (ended _)
      | none =>
        have ⟨closes, closed⟩ : kind = .closeBracket ∧ level = 0 := by
          cases kind <;> simp [depthAfter?] at counted ⊢
          exact counted
        subst closes closed
        by_cases outermost : depth = 0
        · left
          subst outermost
          rw [moved, items_of_mismatched split counted, items_of_mismatched split counted]
          rfl
        · right
          have deeper : depthAfter? (0 + depth) .closeBracket = some (depth - 1) := by
            rw [Nat.zero_add]
            exact if_neg outermost
          have items := items_of_split split deeper (position + place)
          exact ⟨outermost, rfl, items_of_mismatched split counted position, _, _, rfl, rfl, items⟩

/-- What comes of a lexer comes of it further right and within more brackets as well, or the first
`]` that was one too many closes one of those. -/
theorem exists_items_moved (running : x.failed = false) (place depth : Nat) :
    Source.items (x.moved place depth) = (Source.items x).map (further place) ∨
      depth ≠ 0 ∧ ∃ inner y close others, Yields x inner y ∧ y.depth = 0 ∧
        close.kind = .closeBracket ∧ close.start = y.position + place ∧
        Source.items x = inner.map .ok ++ [.error (.mismatchedBracket y.position)] ∧
        Source.items (x.moved place depth) =
          (inner.map (Token.relocate (· + place))).map .ok ++ .ok close :: others := by
  obtain ⟨tokens, y, yields, ended⟩ := exists_yields x running
  have running : y.failed = false := yields.running.trans running
  have last : ∀ t, y.next.1 ≠ some (.ok t) := by
    intro t
    rcases ended with ⟨_, nothing⟩ | ⟨fault, _, failure⟩
    · simp [nothing]
    · simp [failure]
  rw [yields.items, (yields.moved place depth).items, List.map_append, map_further,
    List.append_cancel_left_eq]
  rcases items_moved_of_ended running last place depth with
    same | ⟨deeper, outermost, failed, close, others, kind, start, items⟩
  · exact .inl same
  · refine .inr ⟨deeper, tokens, y, close, others, yields, outermost, kind, start, ?_, ?_⟩
    · rw [failed]
    · rw [items]

/-- Where no more brackets are open, all that comes is further right. -/
theorem items_moved (running : x.failed = false) (place : Nat) :
    Source.items (x.moved place 0) = (Source.items x).map (further place) := by
  rcases exists_items_moved running place 0 with same | ⟨deeper, _⟩
  · exact same
  · exact absurd rfl deeper

end Lexer

namespace Token

/-- The brackets among tokens, without parentheses and whatever else is there. -/
def brackets (tokens : List Token) : List Token :=
  tokens.filter fun t => t.kind = .openBracket || t.kind = .closeBracket

theorem brackets_append (first second : List Token) :
    brackets (first ++ second) = brackets first ++ brackets second :=
  List.filter_append ..

theorem brackets_cons_of_bracket {t : Token}
    (bracket : t.kind = .openBracket ∨ t.kind = .closeBracket) (rest : List Token) :
    brackets (t :: rest) = t :: brackets rest :=
  List.filter_cons_of_pos (by simpa using bracket)

theorem brackets_cons_of_other {t : Token} (opens : t.kind ≠ .openBracket)
    (closes : t.kind ≠ .closeBracket) (rest : List Token) :
    brackets (t :: rest) = brackets rest :=
  List.filter_cons_of_neg (by simp [opens, closes])

/-- Whether a `]` that stands behind `front` and `inner` closes a bracket of `front`. -/
def ClosesWithin (front inner : List Token) (close : Token) : Prop :=
  close.kind = .closeBracket ∧ ∃ before opening between,
    front = before ++ opening :: between ∧ opening.kind = .openBracket ∧
      Nested (brackets (between ++ inner))

/-- What comes behind `front` as it is within the source, and as it comes of a lexer that starts
there: the same, or the same up to the first `]` that closes a bracket of `front`, where that lexer
fails. -/
inductive Resumes (front : List Token) :
    List (Except Fault Token) → List (Except Fault Token) → Prop
  | alike {later : List (Except Fault Token)}
      (apart : ∀ inner close others, later = inner.map .ok ++ .ok close :: others →
        ¬ ClosesWithin front inner close) :
      Resumes front later later
  | stops {inner : List Token} {close : Token} {others : List (Except Fault Token)}
      (closes : ClosesWithin front inner close)
      (first : ∀ between earlier rest, inner = between ++ earlier :: rest →
        ¬ ClosesWithin front between earlier) :
      Resumes front (inner.map .ok ++ .ok close :: others)
        (inner.map .ok ++ [.error (.mismatchedBracket close.start)])

end Token

namespace Lexer

variable {x y : Lexer} {tokens : List Token}

/-- The brackets that a lexer counts as open are those that the matcher holds. -/
theorem Yields.afterAll_brackets (yields : Yields x tokens y) {unclosed : List Opener}
    (level : unclosed.length = x.depth) (square : ∀ o ∈ unclosed, o.closer = .closeBracket) :
    ∃ last, Opener.afterAll unclosed (Token.brackets tokens) = .ok last ∧
      last.length = y.depth ∧ ∀ o ∈ last, o.closer = .closeBracket := by
  induction yields generalizing unclosed with
  | nothing x => exact ⟨unclosed, rfl, level, square⟩
  | @token x y z t rest here _ ih =>
    obtain ⟨_, _, _, _, kind, depth, _, _, _, counted, same, rfl⟩ := exists_of_next_ok here
    have shape : t.kind = kind := congrArg Token.kind same
    by_cases opens : kind = .openBracket
    · obtain rfl : x.depth + 1 = depth := by simpa [depthAfter?, opens] using counted
      have step : Opener.after unclosed t = .ok (.bracket t.start :: unclosed) := by
        simp only [Opener.after, shape, opens]
      rw [Token.brackets_cons_of_bracket (.inl (shape.trans opens)),
        Opener.afterAll_cons_of_ok step]
      exact ih (congrArg (· + 1) level) (List.forall_mem_cons.2 ⟨rfl, square⟩)
    · by_cases closes : kind = .closeBracket
      · obtain ⟨deeper, rfl⟩ : x.depth ≠ 0 ∧ x.depth - 1 = depth := by
          simpa [depthAfter?, closes] using counted
        obtain _ | ⟨o, outer⟩ := unclosed
        · exact absurd level.symm deeper
        · cases o with
          | paren start => cases square _ List.mem_cons_self
          | bracket start =>
            have step : Opener.after (.bracket start :: outer) t = .ok outer := by
              simp only [Opener.after, shape, closes]
            rw [Token.brackets_cons_of_bracket (.inr (shape.trans closes)),
              Opener.afterAll_cons_of_ok step]
            exact ih (congrArg (· - 1) level) (List.forall_mem_cons.1 square).2
      · have same : x.depth = depth := by
          cases kind <;> simp_all [depthAfter?]
        rw [Token.brackets_cons_of_other (shape ▸ opens) (shape ▸ closes)]
        exact ih (level.trans same) square

theorem Yields.opened_brackets (yields : Yields x tokens y) (outermost : x.depth = 0) :
    ∃ unclosed, Opener.Opened unclosed (Token.brackets tokens) ∧ unclosed.length = y.depth ∧
      ∀ o ∈ unclosed, o.closer = .closeBracket := by
  have level : ([] : List Opener).length = x.depth := outermost.symm
  obtain ⟨unclosed, passed, count, square⟩ := yields.afterAll_brackets level nofun
  exact ⟨unclosed, .of_afterAll passed, count, square⟩

theorem Yields.nested_brackets (yields : Yields x tokens y) (outermost : x.depth = 0)
    (closed : y.depth = 0) : Nested (Token.brackets tokens) := by
  obtain ⟨unclosed, opened, count, _⟩ := yields.opened_brackets outermost
  obtain rfl := List.length_eq_zero_iff.1 (count.trans closed)
  cases opened with
  | nothing nested => exact nested

/-- Of tokens that leave a bracket open one opens it, and the brackets behind that are nested. -/
theorem Yields.exists_opening (yields : Yields x tokens y) (outermost : x.depth = 0)
    (deeper : y.depth ≠ 0) :
    ∃ before opening between, tokens = before ++ opening :: between ∧
      opening.kind = .openBracket ∧ Nested (Token.brackets between) := by
  obtain ⟨unclosed, opened, count, square⟩ := yields.opened_brackets outermost
  obtain _ | ⟨o, outer⟩ := unclosed
  · exact absurd count.symm deeper
  · generalize found : Token.brackets tokens = among at opened
    cases opened with
    | @within _ _ front inner t outside opens nested =>
      obtain ⟨before, others, rfl, _, rest⟩ := List.filter_eq_append_iff.1 found
      obtain ⟨plain, between, rfl, _, _, rfl⟩ := List.filter_eq_cons_iff.1 rest
      refine ⟨before ++ plain, t, between, by simp, ?_, nested⟩
      have bracket := square o List.mem_cons_self
      rcases opens.kind_cases with ⟨_, rfl⟩ | ⟨kind, _⟩
      · cases bracket
      · exact kind

/-- A `]` among what a lexer yields that starts afresh closes no bracket from before. -/
theorem Yields.not_closesWithin {front inner rest : List Token} {close : Token}
    (yields : Yields x (inner ++ close :: rest) y) (outermost : x.depth = 0) :
    ¬ Token.ClosesWithin front inner close := by
  rintro ⟨kind, _, _, between, _, _, nested⟩
  obtain ⟨z, first, later⟩ := yields.exists_between
  have deeper : z.depth ≠ 0 := by
    cases later with
    | token here _ =>
      obtain ⟨_, _, _, _, _, _, _, _, _, counted, rfl, _⟩ := exists_of_next_ok here
      obtain rfl := kind
      simp only [depthAfter?, Option.ite_none_left_eq_some] at counted
      exact counted.1
  -- A bracket of `inner` is open there, so the `]` closes that one.
  obtain ⟨before, opening, others, rfl, opens, inside⟩ := first.exists_opening outermost deeper
  have split : Token.brackets (between ++ (before ++ opening :: others)) =
      Token.brackets (between ++ before) ++ opening :: Token.brackets others := by
    rw [← List.append_assoc, Token.brackets_append, Token.brackets_cons_of_bracket (.inl opens)]
  have opener : opening.kind.closer? = some .closeBracket := by
    rw [opens]
    rfl
  exact inside.not_closedIn opening (nested.closedIn split opener)

/-- How what a lexer yields behind `front` comes of one that starts there. -/
theorem Yields.resumes {source : Lexer} {front : List Token} (yields : Yields source front x)
    (outermost : source.depth = 0) (running : x.failed = false) :
    let fresh : Lexer := ⟨x.lexicon, x.rest, 0, 0, false⟩
    Token.Resumes front (Source.items x) ((Source.items fresh).map (further x.position)) ∧
      (x.depth = 0 → (Source.items fresh).map (further x.position) = Source.items x) := by
  intro fresh
  have here : fresh.moved x.position x.depth = x := by
    obtain ⟨l, rest, position, depth, failed⟩ := x
    obtain rfl : failed = false := running
    show Lexer.mk l rest (0 + position) (0 + depth) false = _
    rw [Nat.zero_add, Nat.zero_add]
  have apart {inner : List Token} {close : Token} {others : List (Except Fault Token)}
      (items : (Source.items fresh).map (further x.position) =
        inner.map .ok ++ .ok close :: others) :
      ¬ Token.ClosesWithin front inner close := by
    have split : Source.items (fresh.moved x.position 0) =
        (inner ++ [close]).map .ok ++ others := by
      rw [items_moved rfl, items, List.map_append, List.append_assoc]
      rfl
    obtain ⟨z, again, _⟩ := exists_yields_of_items split
    exact again.not_closesWithin rfl
  rcases exists_items_moved (x := fresh) rfl x.position x.depth with
    same | ⟨deeper, inner, y, close, others, again, closed, kind, start, failed, items⟩
  · rw [here] at same
    refine ⟨?_, fun _ => same.symm⟩
    rw [← same] at apart ⊢
    exact .alike fun inner close others => apart
  · rw [here] at items
    have raised : (Source.items fresh).map (further x.position) =
        (inner.map (Token.relocate (· + x.position))).map .ok ++
          [.error (.mismatchedBracket close.start)] := by
      rw [failed, List.map_append, map_further, start]
      rfl
    refine ⟨?_, fun outer => absurd outer deeper⟩
    rw [raised, items]
    refine .stops ⟨kind, ?_⟩ fun between earlier rest split => ?_
    · obtain ⟨before, opening, between, rfl, opens, nested⟩ :=
        yields.exists_opening outermost deeper
      refine ⟨before, opening, between, rfl, opens, ?_⟩
      rw [Token.brackets_append]
      exact nested.append ((again.moved x.position 0).nested_brackets rfl closed)
    · rw [split, List.map_append, List.append_assoc] at raised
      exact apart raised

end Lexer

/-- A source cut in two: what comes of its parts by themselves, the tokens before the cut, and what
comes behind it within the source, where the lexer is `x`. -/
structure Config.Cut {φ : Type} (config : Config φ) (source : String) (place : Nat)
    (front : List Token) (later : List (Except Fault Token)) (x : Lexer) (before after : String) :
    Prop where
  text : source = before ++ after
  size : before.utf8ByteSize = place
  yields : (config.tokens source).Yields front x
  position : x.position = place
  items : Source.items (config.tokens source) = front.map .ok ++ later
  earlier : ∀ t ∈ front, t.stop ≤ place
  further : ∀ t, .ok t ∈ later → place ≤ t.start ∧ place < t.stop
  /-- What comes of the first part by itself. -/
  first : Source.items (config.tokens before) = front.map .ok
  /-- What comes of the second part by itself, its offsets counted from the start of the source. -/
  second : Token.Resumes front later
    ((Source.items (config.tokens after)).map (Lexer.further place))
  outermost : x.depth = 0 → (Source.items (config.tokens after)).map (Lexer.further place) = later

/-- Wherever a token of a source ends the source can be cut in two. The first part by itself has the
tokens that the source has up to there, and no fault. The second part by itself has what comes in
the source behind them, as far to the left as the cut is, up to its end, or up to the first `]` that
closes a bracket of the first part, where the fault of a `]` without its bracket comes in its place.
Where no bracket is open at the cut it is all of it. -/
theorem Config.exists_cut {φ : Type} (config : Config φ) {source : String} {t : Token}
    (member : .ok t ∈ Source.items (config.tokens source)) :
    ∃ front later x before after, config.Cut source t.stop front later x before after := by
  obtain ⟨tokens, last, whole, within⟩ := Lexer.exists_yields_of_mem_items rfl member
  obtain ⟨former, latter, rfl⟩ := List.append_of_mem within
  obtain ⟨y, first, second⟩ := whole.exists_between
  cases second with
  | @token _ x _ _ _ here _ =>
    have yields : (config.tokens source).Yields (former ++ [t]) x :=
      first.append (.token here (.nothing x))
    have position : x.position = t.stop := by
      obtain ⟨_, _, _, _, _, _, _, _, _, _, _, rfl⟩ := Lexer.exists_of_next_ok here
      rfl
    have covers : x.Covers source (former ++ [t]) := yields.covers
    have running : x.failed = false := yields.running
    have lexicon : x.lexicon = config.lexicon := yields.lexicon
    obtain ⟨second, outermost⟩ := yields.resumes rfl running
    rw [position, lexicon] at second outermost
    have fresh : config.tokens (String.ofList x.rest) = ⟨config.lexicon, x.rest, 0, 0, false⟩ := by
      rw [Config.tokens, Lexer.new, String.toList_ofList]
    refine ⟨former ++ [t], Source.items x, x, Token.joined (former ++ [t]), String.ofList x.rest,
      ⟨covers.text.symm, covers.position.symm.trans position, yields, position, yields.items,
        fun u earlier => ?_, fun u later => ?_, ?_, ?_, ?_⟩⟩
    · rw [← position]
      exact (Token.within_of_mem covers.consecutive earlier).2
    · obtain ⟨tokens, z, later, among⟩ := Lexer.exists_yields_of_mem_items running later
      obtain ⟨start, _⟩ := Token.within_of_mem later.consecutive among
      have width : u.raw.utf8ByteSize ≠ 0 := by
        rw [Ne, String.utf8ByteSize_eq_zero_iff]
        exact later.nonempty u among
      rw [← position, Token.stop]
      omega
    · have cut : (config.tokens (Token.joined (former ++ [t]))).Yields (former ++ [t])
          { x with rest := [] } := yields.cut rfl
      have spent : Source.pull { x with rest := [] } = (none, { x with rest := [] }) := by
        simp [Source.pull, Lexer.next]
      rw [cut.items, Source.items_of_pull_none spent, List.append_nil]
    · rw [fresh]
      exact second
    · rw [fresh]
      exact outermost

/-- `[a,[b]]c` can be cut behind its first word, where a bracket is open. -/
theorem Config.exists_cut_bracket :
    let config : Config Unit := standard
    .ok ⟨.word, "a", 1⟩ ∈ Source.items (config.tokens "[a,[b]]c") ∧
      ∃ front later x before after, config.Cut "[a,[b]]c" 2 front later x before after := by
  intro config
  let left (rest : List Char) (position depth : Nat) : Lexer :=
    ⟨⟨Standard.symbolsInOrder, .standard⟩, rest, position, depth, false⟩
  have yields : (config.tokens "[a,[b]]c").Yields [⟨.openBracket, "[", 0⟩, ⟨.word, "a", 1⟩]
      (left ",[b]]c".toList 2 1) := by
    rw [Config.tokens, Standard.lexicon_eq rfl]
    exact .token (y := left "a,[b]]c".toList 1 1) (by rfl) <|
      .token (by rfl) (.nothing _)
  have member : .ok ⟨.word, "a", 1⟩ ∈ Source.items (config.tokens "[a,[b]]c") := by
    rw [yields.items]
    exact List.mem_append_left _ (List.mem_cons_of_mem _ List.mem_cons_self)
  exact ⟨member, config.exists_cut member⟩

end Reckoner
