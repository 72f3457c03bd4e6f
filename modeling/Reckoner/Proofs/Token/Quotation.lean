import Reckoner.Proofs.Token.Classification
import Reckoner.Proofs.Token.Provenance

set_option autoImplicit false

namespace Reckoner

namespace Literal

/-- A text after its delimiter, with the delimiter behind it or without. -/
def quoted (delimiter : Char) (body : String) (closed : Bool) : String :=
  String.ofList (delimiter :: (body.toList ++ if closed then [delimiter] else []))

theorem ofEnclosed_quoted {delimiter : Char} {body : String} (inside : delimiter ∉ body.toList)
    (closed : Bool) : ofEnclosed (quoted delimiter body closed) = .text body := by
  cases closed with
  | true =>
    have last : (body.toList ++ [delimiter]).getLast? = some delimiter := List.getLast?_concat
    simp only [ofEnclosed, quoted, if_true, String.toList_ofList, last, List.dropLast_concat,
      String.ofList_toList]
  | false =>
    have last : body.toList.getLast? ≠ some delimiter :=
      fun same => inside (List.mem_of_getLast? same)
    simp only [ofEnclosed, quoted, Bool.false_eq_true, if_false, List.append_nil,
      String.toList_ofList, last, String.ofList_toList]

end Literal

namespace Lexer

variable {l : Lexicon} {source : String} {tokens : List Token} {y : Lexer}

/-- The token of a string is a text in its delimiter, which is not in the text, and only at the end
of the source it is not closed. -/
theorem Yields.exists_quoted (yields : Yields (Lexer.new l source) tokens y) {t : Token}
    (member : t ∈ tokens) (string : t.kind = .string) :
    ∃ delimiter body closed, l.classes .stringHead delimiter = true ∧ delimiter ∉ body.toList ∧
      t.raw = Literal.quoted delimiter body closed ∧
      (closed = false → t.stop = source.utf8ByteSize) := by
  obtain ⟨first, second, rfl⟩ := List.append_of_mem member
  obtain ⟨between, front, back⟩ := yields.exists_between
  cases back with
  | @token _ z _ _ _ here later =>
    have covers := (front.append (.token here (.nothing z))).covers
    obtain ⟨c, rest, taken, after, kind, depth, _, _, split, _, rfl, rfl⟩ := exists_of_next_ok here
    obtain rfl : kind = .string := string
    rw [front.lexicon] at split
    obtain ⟨head, enclosed⟩ := Lexicon.split?_string_enclosed split
    by_cases again : c ∈ rest
    · obtain ⟨body, behind, rfl, inside⟩ := List.eq_append_cons_of_mem again
      rw [Lexicon.enclosed_of_closed inside] at enclosed
      obtain ⟨rfl, rfl⟩ := Prod.mk.inj enclosed
      refine ⟨c, String.ofList body, true, head, by rwa [String.toList_ofList], ?_, ?_⟩
      · simp only [Literal.quoted, String.toList_ofList, if_true]
      · intro unclosed
        cases unclosed
    · rw [Lexicon.enclosed_of_unclosed again] at enclosed
      obtain ⟨rfl, rfl⟩ := Prod.mk.inj enclosed
      refine ⟨c, String.ofList rest, false, head, by rwa [String.toList_ofList], ?_, ?_⟩
      · simp only [Literal.quoted, String.toList_ofList, Bool.false_eq_true, if_false,
          List.append_nil]
      · intro _
        have whole := covers.text
        rw [String.ofList_nil, String.append_empty] at whole
        rw [← whole]
        exact covers.position

end Lexer

namespace Config

variable {φ : Type} {config : Config φ} {source : String} {tokens : List Token} {y : Lexer}

theorem firstRole?_of_stringHead {c : Char} (number : config.classes .numberStart c = false)
    (head : config.classes .stringHead c = true) : config.firstRole? c = some .stringHead := by
  simp only [firstRole?, List.find?_cons, number, head]

/-- A text in a delimiter is the next token, whatever follows it. -/
theorem next_of_quoted (yields : (config.tokens source).Yields tokens y) {delimiter : Char}
    {body : String} {after : List Char}
    (front : y.rest = delimiter :: (body.toList ++ delimiter :: after))
    (inside : delimiter ∉ body.toList) (apart : config.NoSymbol y.rest)
    (head : config.classes .stringHead delimiter = true)
    (number : config.classes .numberStart delimiter = false) :
    y.next.1 = some (.ok ⟨.string, Literal.quoted delimiter body true, y.position⟩) ∧
      y.next.2.rest = after := by
  have running : y.failed = false := yields.running
  have lexicon : y.lexicon = config.lexicon := yields.lexicon
  rw [front] at apart
  have split := split?_of_string apart (firstRole?_of_stringHead number head)
  rw [Lexicon.enclosed_of_closed inside, ← lexicon] at split
  rw [Lexer.next_of_split running front split rfl]
  exact ⟨rfl, rfl⟩

/-- The literal of a string token is what was quoted. Each token of a string is a text after its
delimiter, which is one of the characters for it and not in the text, with the delimiter behind it or
the end of the source. And where a text that the delimiter is not in stands between two of them, with
no symbol in front, they and the text are the next token, whatever follows; its literal is the
text. -/
theorem string_literal (yields : (config.tokens source).Yields tokens y) :
    (∀ t ∈ tokens, t.kind = .string → ∃ delimiter body closed,
      config.classes .stringHead delimiter = true ∧ delimiter ∉ body.toList ∧
      t.raw = Literal.quoted delimiter body closed ∧
      (closed = false → t.stop = source.utf8ByteSize) ∧
      Literal.ofEnclosed t.raw = .text body) ∧
    ∀ (delimiter : Char) (body : String) (after : List Char),
      y.rest = delimiter :: (body.toList ++ delimiter :: after) → delimiter ∉ body.toList →
      config.NoSymbol y.rest → config.classes .stringHead delimiter = true →
      config.classes .numberStart delimiter = false →
      y.next.1 = some (.ok ⟨.string, Literal.quoted delimiter body true, y.position⟩) ∧
      y.next.2.rest = after ∧
      Literal.ofEnclosed (Literal.quoted delimiter body true) = .text body := by
  constructor
  · intro t member string
    obtain ⟨delimiter, body, closed, head, inside, raw, ended⟩ :=
      yields.exists_quoted member string
    refine ⟨delimiter, body, closed, head, inside, raw, ended, ?_⟩
    rw [raw, Literal.ofEnclosed_quoted inside]
  · intro delimiter body after front inside apart head number
    obtain ⟨token, rest⟩ := next_of_quoted yields front inside apart head number
    exact ⟨token, rest, Literal.ofEnclosed_quoted inside true⟩

/-- In `“it's““““` the text in the first pair of quotes has another quote in it, and that in the second
pair is empty. -/
theorem string_literal_empty :
    let config : Config Unit := .build [.charClass .stringHead (· = '\u201c')]
    ∃ y, (config.tokens "\u201cit\x27s\u201c\u201c\u201c\u201c").Yields
        [⟨.string, "\u201cit\x27s\u201c", 0⟩] y ∧
      Literal.ofEnclosed "\u201cit\x27s\u201c" = .text "it\x27s" ∧
      y.next.1 = some (.ok ⟨.string, "\u201c\u201c", 10⟩) ∧ y.next.2.rest = ['\u201c'] ∧
      Literal.ofEnclosed "\u201c\u201c" = .text "" := by
  intro config
  have lexicon : config.lexicon = ⟨Standard.symbolsInOrder, config.classes⟩ :=
    Standard.lexicon_eq rfl
  have here : (config.tokens "\u201cit\x27s\u201c\u201c\u201c\u201c").next =
      (some (.ok ⟨.string, "\u201cit\x27s\u201c", 0⟩),
        ⟨config.lexicon, ['\u201c', '\u201c', '\u201c'], 10, 0, false⟩) := by
    rw [Config.tokens, lexicon]
    rfl
  have yields := Lexer.Yields.token here (.nothing _)
  have apart : config.NoSymbol ['\u201c', '\u201c', '\u201c'] :=
    noSymbol_iff.2 (by rw [lexicon]; rfl)
  have strings := (string_literal yields).2
  obtain ⟨token, rest, empty⟩ := strings '\u201c' "" ['\u201c'] rfl (by decide) apart rfl rfl
  exact ⟨_, yields, by decide, token, rest, empty⟩

end Config

end Reckoner
