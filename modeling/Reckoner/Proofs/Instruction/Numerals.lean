import Reckoner.Proofs.Decimal.Cut
import Reckoner.Proofs.Decimal.Lenient
import Reckoner.Proofs.Double.Comparison
import Reckoner.Proofs.Double.Rounding
import Reckoner.Proofs.Text.Order
import Reckoner.Proofs.Token.Provenance

set_option autoImplicit false

namespace Reckoner

open Decimal (Longest IsNumeral SpellsSigned bytes numeralEnd? read? signed noNumber)

namespace Decimal

theorem bytes_toList (s : String) : bytes s.toList = s.toByteArray.data.toList :=
  (Text.data_toByteArray s).symm

theorem length_bytes_toList (s : String) : (bytes s.toList).length = s.utf8ByteSize := by
  rw [bytes_toList]
  simp

theorem numeralEnd?_of_scan {cs rest : List Char} {n : Numeral}
    (found : scan (sign cs).2 = some (n, rest)) {p : List Char} (parts : cs = p ++ rest) :
    numeralEnd? (bytes cs) = some (bytes p).length := by
  rcases numeralEnd?_bytes cs with ⟨none, _⟩ | ⟨_, _, place, found', place', front, same, size⟩
  · rw [found] at none
    cases none
  · obtain ⟨rfl, rfl⟩ := Prod.mk.inj (Option.some.inj (found.symm.trans found'))
    rw [place', ← size]
    rw [parts, bytes_append] at same
    rw [List.append_cancel_right same]

end Decimal

namespace Literal

/-- The text of a numeral that is taken, with the double that the usual reader takes it for. -/
structure Taken (raw : String) (p : List Char) (x : Float) : Prop where
  longest : ∃ negative n, Longest raw.toList p negative n ∧ x = signed negative n.value.toFloat
  cut : numeralEnd? raw.toByteArray.data.toList = some (String.ofList p).utf8ByteSize
  boundary : (⟨(String.ofList p).utf8ByteSize⟩ : String.Pos.Raw).IsValid raw
  read : read? p = some x
  literal : ofNumeral raw = .number x
  number : x.isNaN = false

/-- Either a numeral is taken, or no text at the front is one. -/
theorem ofNumeral_cases (raw : String) :
    (∃ p x, Taken raw p x) ∨
      (∀ q, q <+: raw.toList → ¬ IsNumeral q) ∧
        numeralEnd? raw.toByteArray.data.toList = none ∧ ofNumeral raw = .number noNumber := by
  rcases Decimal.scan_sign_cases raw.toList with
    ⟨none, absent⟩ | ⟨p, n, rest, found, parts, longest⟩
  · right
    refine ⟨absent, ?_, ?_⟩
    · rw [← Decimal.bytes_toList]
      rcases Decimal.numeralEnd?_bytes raw.toList with ⟨_, none'⟩ | ⟨_, _, _, found, _⟩
      · exact none'
      · rw [none] at found
        cases found
    · simp only [ofNumeral, Decimal.leading?, none, Option.map_none, Option.getD_none]
  · left
    have text : raw = String.ofList p ++ String.ofList rest := by
      rw [← String.ofList_append, ← parts, String.ofList_toList]
    have place := Decimal.numeralEnd?_of_scan found parts
    refine ⟨p, signed (Decimal.sign raw.toList).1 n.value.toFloat, ⟨_, n, longest, rfl⟩, ?_, ?_,
      Decimal.read?_of_spellsSigned longest.spelled, ?_, ?_⟩
    · rw [← Decimal.bytes_toList, place, ← Decimal.length_bytes_toList, String.toList_ofList]
    · rw [String.Pos.Raw.isValid_iff_exists_append]
      exact ⟨_, _, text, rfl⟩
    · simp only [ofNumeral, Decimal.leading?, found, Option.map_some, Option.getD_some]
    · rw [Double.isNaN_signed, Double.isNaN_toFloat]

theorem exists_ofNumeral_of_isDigit {c : Char} (digit : c.isDigit) (rest : List Char) :
    ∃ x, ofNumeral (String.ofList (c :: rest)) = .number x ∧ x.isNaN = false := by
  rcases ofNumeral_cases (String.ofList (c :: rest)) with ⟨p, x, taken⟩ | ⟨absent, _⟩
  · exact ⟨x, taken.literal, taken.number⟩
  · have digits : ∀ d ∈ [c], d.isDigit := by
      intro d member
      rwa [List.mem_singleton.1 member]
    have spelled := Decimal.Spells.of digits .none (.inl (List.cons_ne_nil c [])) .none
    refine absurd ⟨false, _, .of .none spelled⟩ (absent [c] ?_)
    rw [String.toList_ofList]
    exact ⟨rest, rfl⟩

end Literal

/-- The literal of a number is the longest numeral that its text begins with, and NaN only if it begins
with none. The place where it is cut off, found byte by byte, is one between characters, and what is
before it is a text that the usual reader takes, so NaN never stands for what that refuses. Where
numbers begin with a digit no token of a number is NaN. -/
theorem Literal.ofNumeral_longest {φ : Type} (config : Config φ) (raw source : String) :
    ((∃ p x, Taken raw p x) ∨
      (∀ q, q <+: raw.toList → ¬ IsNumeral q) ∧
        numeralEnd? raw.toByteArray.data.toList = none ∧
        ofNumeral raw = .number noNumber ∧ noNumber.isNaN = true) ∧
    (config.classes .numberStart = CharClasses.standard .numberStart →
      ∀ tokens y, (config.tokens source).Yields tokens y → ∀ t ∈ tokens, t.kind = .number →
        ∃ x, ofNumeral t.raw = .number x ∧ x.isNaN = false) := by
  constructor
  · rcases ofNumeral_cases raw with taken | ⟨absent, none, literal⟩
    · exact .inl taken
    · exact .inr ⟨absent, none, literal, Double.isNaN_noNumber⟩
  · intro digits tokens y yields t member number
    obtain ⟨c, rest, taken, after, split, spelled⟩ := yields.exists_split t member
    rw [number] at split
    obtain ⟨start, run, rfl⟩ := Lexicon.split?_number_start split
    have digit : c.isDigit = true := (congrFun digits c).symm.trans start
    rw [spelled]
    exact exists_ofNumeral_of_isDigit digit run

end Reckoner
