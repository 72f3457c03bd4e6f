import Reckoner.Proofs.Decimal.Longest

set_option autoImplicit false

namespace Reckoner.Decimal

/-- The double that the usual reader takes a text for: a numeral, `inf`, `infinity` or `nan`, the words
in any case, and all of them with a sign or without. -/
def read? (cs : List Char) : Option Float :=
  let (negative, body) := sign cs
  let word := body.map Char.toLower
  if word = "inf".toList ∨ word = "infinity".toList then some (signed negative infinity)
  else if word = "nan".toList then some noNumber
  else (parse? body).map fun d => signed negative d.toFloat

theorem toLower_of_isDigit {c : Char} (digit : c.isDigit) : c.toLower = c := by
  have bound : c.toNat ≤ 57 := (Char.isDigit_iff_toNat.1 digit).2
  have small : ¬ (c.val ≥ 'A'.val ∧ c.val ≤ 'Z'.val) := by
    rintro ⟨lower, _⟩
    have lower' : 65 ≤ c.toNat := lower
    omega
  exact dif_neg small

theorem isNumeralChar_cases {c : Char} (numeral : isNumeralChar c) :
    c.isDigit ∨ c = '.' ∨ c = 'e' ∨ c = 'E' ∨ c = '+' ∨ c = '-' := by
  simpa only [isNumeralChar, Bool.or_eq_true, decide_eq_true_eq, or_assoc] using numeral

theorem toNat_of_isNumeralChar {c : Char} (numeral : isNumeralChar c) :
    0x2B ≤ c.toNat ∧ c.toNat ≤ 0x65 := by
  rcases isNumeralChar_cases numeral with digit | rfl | rfl | rfl | rfl | rfl
  · have range : 48 ≤ c.toNat ∧ c.toNat ≤ 57 := Char.isDigit_iff_toNat.1 digit
    omega
  all_goals decide

theorem isNumeralChar_toLower {c : Char} (numeral : isNumeralChar c) : isNumeralChar c.toLower := by
  rcases isNumeralChar_cases numeral with digit | rfl | rfl | rfl | rfl | rfl
  · rwa [toLower_of_isDigit digit]
  all_goals decide

/-- What has only the characters of numerals is none of the words that have an `n`. -/
theorem map_toLower_ne {cs : List Char} (numeral : ∀ c ∈ cs, isNumeralChar c) (word : List Char)
    (letter : 'n' ∈ word) : cs.map Char.toLower ≠ word := by
  rintro rfl
  obtain ⟨c, member, lower⟩ := List.mem_map.1 letter
  have low := isNumeralChar_toLower (numeral c member)
  rw [lower] at low
  cases low

theorem Spells.isNumeralChar {p : List Char} {n : Numeral} (spelled : Spells p n) :
    ∀ c ∈ p, isNumeralChar c := by
  intro c member
  cases numeral : Decimal.isNumeralChar c with
  | true => rfl
  | false =>
    have read := parse?_eq_some_iff.2 ⟨n, spelled, rfl⟩
    rw [parse?_eq_none_of_mem member numeral] at read
    cases read

theorem SpellsSigned.isNumeralChar {p : List Char} {negative : Bool} {n : Numeral}
    (spelled : SpellsSigned p negative n) : ∀ c ∈ p, isNumeralChar c := by
  obtain ⟨signed, spelled⟩ := spelled
  intro c member
  rcases List.mem_append.1 member with sign | body
  · cases signed with
    | none => cases sign
    | plus =>
      rw [List.mem_singleton.1 sign]
      decide
    | minus =>
      rw [List.mem_singleton.1 sign]
      decide
  · exact spelled.isNumeralChar c body

/-- On the characters of numerals the usual reader takes numerals alone. -/
theorem read?_of_isNumeralChar {front body : List Char} {negative : Bool}
    (marked : Signs front negative) (numeral : ∀ c ∈ body, isNumeralChar c)
    (signless : Signless body) :
    read? (front ++ body) = (parse? body).map fun d => signed negative d.toFloat := by
  have inf := map_toLower_ne numeral "inf".toList (by decide)
  have infinity := map_toLower_ne numeral "infinity".toList (by decide)
  have nan := map_toLower_ne numeral "nan".toList (by decide)
  simp only [read?, sign_append marked signless, inf, infinity, nan, or_self, if_false]

/-- The usual reader takes every numeral, for the double next to it. -/
theorem read?_of_spellsSigned {p : List Char} {negative : Bool} {n : Numeral}
    (spelled : SpellsSigned p negative n) :
    read? p = some (signed negative n.value.toFloat) := by
  obtain @⟨front, body, negative, n, marked, spelled⟩ := spelled
  rw [read?_of_isNumeralChar marked spelled.isNumeralChar spelled.signless,
    parse?_eq_some_iff.2 ⟨n, spelled, rfl⟩, Option.map_some]

end Reckoner.Decimal
