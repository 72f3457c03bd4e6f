import Reckoner.Evaluation

set_option autoImplicit false

namespace Reckoner

namespace Token

def joined : List Token → String
  | [] => ""
  | t :: rest => t.raw ++ joined rest

/-- Whether the first token starts at `start`, each other one where the one before it stops, and the
last one stops at `stop`. -/
def Consecutive (start : Nat) : List Token → Nat → Prop
  | [], stop => start = stop
  | t :: rest, stop => t.start = start ∧ Consecutive t.stop rest stop

theorem length_le_joined {tokens : List Token} (nonempty : ∀ t ∈ tokens, t.raw ≠ "") :
    tokens.length ≤ (joined tokens).length := by
  induction tokens with
  | nil => exact Nat.le_refl 0
  | cons t rest ih =>
    have others := ih fun u member => nonempty u (List.mem_cons_of_mem t member)
    have here : t.raw.length ≠ 0 := by
      intro nothing
      rw [← String.length_toList, List.length_eq_zero_iff, String.toList_eq_nil_iff] at nothing
      exact nonempty t List.mem_cons_self nothing
    rw [joined, String.length_append, List.length_cons]
    omega

theorem stop_of_consecutive {start stop : Nat} {tokens : List Token}
    (consecutive : Consecutive start tokens stop) :
    stop = start + (joined tokens).utf8ByteSize := by
  induction tokens generalizing start with
  | nil =>
    obtain rfl := consecutive
    rfl
  | cons t rest ih =>
    obtain ⟨rfl, later⟩ := consecutive
    rw [ih later, joined, String.utf8ByteSize_append, Token.stop, Nat.add_assoc]

theorem exists_of_mem {start stop : Nat} {tokens : List Token}
    (consecutive : Consecutive start tokens stop) {t : Token} (member : t ∈ tokens) :
    ∃ before after : String, joined tokens = before ++ (t.raw ++ after) ∧
      t.start = start + before.utf8ByteSize := by
  induction tokens generalizing start with
  | nil => cases member
  | cons u rest ih =>
    obtain ⟨first, later⟩ := consecutive
    rcases List.mem_cons.1 member with rfl | member
    · exact ⟨"", joined rest, (String.empty_append ..).symm, first⟩
    · obtain ⟨before, after, whole, place⟩ := ih later member
      refine ⟨u.raw ++ before, after, ?_, ?_⟩
      · rw [joined, whole, String.append_assoc]
      · rw [place, Token.stop, first, String.utf8ByteSize_append, Nat.add_assoc]

theorem within_of_mem {start stop : Nat} {tokens : List Token}
    (consecutive : Consecutive start tokens stop) {t : Token} (member : t ∈ tokens) :
    start ≤ t.start ∧ t.stop ≤ stop := by
  obtain ⟨before, after, whole, place⟩ := exists_of_mem consecutive member
  have last := stop_of_consecutive consecutive
  rw [whole, String.utf8ByteSize_append, String.utf8ByteSize_append] at last
  rw [Token.stop]
  omega

end Token

namespace Lexer

/-- What a call yields that yields a token: it is the token that the rest of the source begins with,
and of the lexer only where it stands and how many `[` are open change. -/
theorem exists_of_next_ok {x y : Lexer} {t : Token} (yielded : x.next = (some (.ok t), y)) :
    ∃ c rest taken after kind depth, x.failed = false ∧ x.rest = c :: rest ∧
      x.lexicon.split? c rest = some (kind, taken, after) ∧ depthAfter? x.depth kind = some depth ∧
      t = ⟨kind, String.ofList taken, x.position⟩ ∧
      y = { x with rest := after, position := t.stop, depth := depth } := by
  unfold next at yielded
  split at yielded
  · cases yielded
  · next running =>
    split at yielded
    · cases yielded
    · next c rest front =>
      obtain ⟨item, rfl⟩ := Prod.mk.inj yielded
      have token : x.read c rest = (.ok t, (x.read c rest).2) :=
        Prod.ext (Option.some.inj item) rfl
      generalize (x.read c rest).2 = y at token ⊢
      unfold read at token
      split at token
      · cases token
      · next kind taken after found =>
        split at token
        · cases token
        · next depth counted =>
          obtain ⟨same, rfl⟩ := Prod.mk.inj token
          obtain rfl := Except.ok.inj same
          exact ⟨c, rest, taken, after, kind, depth, by simpa using running, front, found, counted,
            rfl, rfl⟩

theorem next_of_split {x : Lexer} {c : Char} {rest taken after : List Char} {kind : TokenKind}
    {depth : Nat} (running : x.failed = false) (front : x.rest = c :: rest)
    (splits : x.lexicon.split? c rest = some (kind, taken, after))
    (counted : depthAfter? x.depth kind = some depth) :
    let token : Token := ⟨kind, String.ofList taken, x.position⟩
    x.next =
      (some (.ok token), { x with rest := after, position := token.stop, depth := depth }) := by
  simp [next, running, front, read, splits, counted]

/-- The lexer `y` is what `x` becomes as it yields the tokens. -/
inductive Yields : Lexer → List Token → Lexer → Prop
  | nothing (x : Lexer) : Yields x [] x
  | token {x y z : Lexer} {t : Token} {rest : List Token} (here : x.next = (some (.ok t), y))
      (later : Yields y rest z) : Yields x (t :: rest) z

namespace Yields

variable {x y : Lexer} {tokens : List Token}

theorem append {z : Lexer} {others : List Token} (first : Yields x tokens y)
    (second : Yields y others z) : Yields x (tokens ++ others) z := by
  induction first with
  | nothing x => exact second
  | token here _ ih => exact .token here (ih second)

/-- Where a lexer stood between two of its tokens. -/
theorem exists_between {first second : List Token} (yields : Yields x (first ++ second) y) :
    ∃ between, Yields x first between ∧ Yields between second y := by
  induction first generalizing x with
  | nil => exact ⟨x, .nothing x, yields⟩
  | cons t rest ih =>
    cases yields with
    | token here later =>
      obtain ⟨between, front, back⟩ := ih later
      exact ⟨between, .token here front, back⟩

theorem nonempty (yields : Yields x tokens y) : ∀ t ∈ tokens, t.raw ≠ "" := by
  induction yields with
  | nothing x => exact nofun
  | token here _ ih =>
    obtain ⟨c, rest, taken, after, kind, depth, _, _, split, _, rfl, _⟩ := exists_of_next_ok here
    have solid := (Lexicon.split?_append split).1
    refine List.forall_mem_cons.2 ⟨?_, ih⟩
    intro nothing
    exact solid (by simpa using nothing)

theorem consecutive (yields : Yields x tokens y) :
    Token.Consecutive x.position tokens y.position := by
  induction yields with
  | nothing x => rfl
  | token here _ ih =>
    obtain ⟨c, rest, taken, after, kind, depth, _, _, _, _, rfl, rfl⟩ := exists_of_next_ok here
    exact ⟨rfl, ih⟩

theorem text (yields : Yields x tokens y) :
    Token.joined tokens ++ String.ofList y.rest = String.ofList x.rest := by
  induction yields with
  | nothing x => exact String.empty_append
  | token here _ ih =>
    obtain ⟨c, rest, taken, after, kind, depth, _, front, split, _, rfl, rfl⟩ :=
      exists_of_next_ok here
    have whole := (Lexicon.split?_append split).2
    rw [Token.joined, String.append_assoc, ih, front, ← whole, String.ofList_append]

theorem running (yields : Yields x tokens y) : y.failed = x.failed := by
  induction yields with
  | nothing x => rfl
  | token here _ ih =>
    obtain ⟨_, _, _, _, _, _, _, _, _, _, _, rfl⟩ := exists_of_next_ok here
    exact ih

theorem items (yields : Yields x tokens y) :
    Source.items x = tokens.map .ok ++ Source.items y := by
  induction yields with
  | nothing x => rfl
  | token here _ ih => rw [Source.items_of_pull_some here, ih, List.map_cons, List.cons_append]

end Yields

/-- A lexer that has not failed yields tokens up to the end of the source, or up to a fault. -/
theorem exists_yields (x : Lexer) (running : x.failed = false) :
    ∃ tokens y, Yields x tokens y ∧ ((y.rest = [] ∧ y.next = (none, y)) ∨
      ∃ fault, fault.position? = some y.position ∧
        y.next = (some (.error fault), { y with failed := true })) := by
  induction size : x.rest.length using Nat.strongRecOn generalizing x with
  | ind n ih =>
    cases front : x.rest with
    | nil =>
      refine ⟨[], x, .nothing x, .inl ⟨front, ?_⟩⟩
      simp [next, running, front]
    | cons c rest =>
      have pulled : x.next = (some (x.read c rest).1, (x.read c rest).2) := by
        simp [next, running, front]
      match item : x.read c rest with
      | (.ok t, y) =>
        rw [item] at pulled
        obtain ⟨_, _, taken, after, _, _, _, whole, split, _, _, rfl⟩ := exists_of_next_ok pulled
        have shorter : after.length < n := by
          have ⟨nonempty, parts⟩ := Lexicon.split?_append split
          have positive := List.length_pos_iff.2 nonempty
          have total := congrArg List.length parts
          rw [List.length_append, ← whole, size] at total
          omega
        obtain ⟨tokens, z, later, ended⟩ :=
          ih after.length shorter ⟨x.lexicon, after, _, _, x.failed⟩ running rfl
        exact ⟨_ :: tokens, z, .token pulled later, ended⟩
      | (.error fault, y) =>
        rw [item] at pulled
        obtain ⟨place, rfl⟩ := read_error item
        exact ⟨[], x, .nothing x, .inr ⟨fault, place, pulled⟩⟩

/-- What the tokens so far say of the source and of where the lexer stands. -/
structure Covers (source : String) (tokens : List Token) (y : Lexer) : Prop where
  nonempty : ∀ t ∈ tokens, t.raw ≠ ""
  consecutive : Token.Consecutive 0 tokens y.position
  text : Token.joined tokens ++ String.ofList y.rest = source
  position : y.position = (Token.joined tokens).utf8ByteSize
  boundary : (⟨y.position⟩ : String.Pos.Raw).IsValid source
  boundaries : ∀ t ∈ tokens,
    (⟨t.start⟩ : String.Pos.Raw).IsValid source ∧ (⟨t.stop⟩ : String.Pos.Raw).IsValid source

theorem Yields.covers {l : Lexicon} {source : String} {tokens : List Token} {y : Lexer}
    (yields : Yields (Lexer.new l source) tokens y) : y.Covers source tokens := by
  have text : Token.joined tokens ++ String.ofList y.rest = source := by
    rw [yields.text]
    exact String.ofList_toList
  have position : y.position = (Token.joined tokens).utf8ByteSize := by
    rw [Token.stop_of_consecutive yields.consecutive]
    exact Nat.zero_add _
  refine ⟨yields.nonempty, yields.consecutive, text, position, ?_, ?_⟩
  · rw [String.Pos.Raw.isValid_iff_exists_append]
    refine ⟨Token.joined tokens, String.ofList y.rest, text.symm, ?_⟩
    rw [position]
    rfl
  · intro t member
    obtain ⟨before, after, whole, place⟩ := Token.exists_of_mem yields.consecutive member
    have start : t.start = before.utf8ByteSize := place.trans (Nat.zero_add _)
    have parts : source = before ++ (t.raw ++ (after ++ String.ofList y.rest)) := by
      rw [← text, whole, String.append_assoc, String.append_assoc]
    constructor
    · rw [String.Pos.Raw.isValid_iff_exists_append]
      refine ⟨before, _, parts, ?_⟩
      rw [start]
      rfl
    · rw [String.Pos.Raw.isValid_iff_exists_append]
      refine ⟨before ++ t.raw, after ++ String.ofList y.rest, ?_, ?_⟩
      · rw [parts, String.append_assoc]
      · rw [Token.stop, start, ← String.utf8ByteSize_append]
        rfl

end Lexer

/-- Whatever the symbols and the classes of a configuration are, the tokens of a source cover it from
its first byte on, without gaps and between characters. They are no more than its characters, and
they end with it, or before the one fault, which leaves the lexer where it stood and is the last that
comes. -/
theorem Config.tokens_cover {φ : Type} (config : Config φ) (source : String) :
    (∀ tokens y, (config.tokens source).Yields tokens y → y.Covers source tokens) ∧
    ∃ tokens y, (config.tokens source).Yields tokens y ∧ tokens.length ≤ source.length ∧
      ((y.position = source.utf8ByteSize ∧ Token.joined tokens = source ∧ y.next = (none, y) ∧
          Source.items (config.tokens source) = tokens.map .ok) ∨
        ∃ fault z, fault.position? = some y.position ∧ y.next = (some (.error fault), z) ∧
          z.position = y.position ∧ z.depth = y.depth ∧ z.next = (none, z) ∧
          Source.items (config.tokens source) = tokens.map .ok ++ [.error fault]) := by
  refine ⟨fun tokens y yields => yields.covers, ?_⟩
  obtain ⟨tokens, y, yields, ended⟩ := Lexer.exists_yields (config.tokens source) rfl
  have covers : y.Covers source tokens := yields.covers
  have size : tokens.length ≤ source.length := by
    have enough := Token.length_le_joined covers.nonempty
    rw [← covers.text, String.length_append]
    omega
  refine ⟨tokens, y, yields, size, ?_⟩
  rcases ended with ⟨done, nothing⟩ | ⟨fault, place, failed⟩
  · have whole : Token.joined tokens = source := by
      have text := covers.text
      rwa [done, String.ofList_nil, String.append_empty] at text
    refine .inl ⟨?_, whole, nothing, ?_⟩
    · rw [covers.position, whole]
    · rw [yields.items, Source.items_of_pull_none nothing, List.append_nil]
  · have spent : Lexer.next { y with failed := true } = (none, { y with failed := true }) := rfl
    refine .inr ⟨fault, { y with failed := true }, place, failed, rfl, rfl, spent, ?_⟩
    rw [yields.items, Source.items_of_pull_some failed, Source.items_of_pull_none spent]

end Reckoner
