import Reckoner.Decimal.Numeral

set_option autoImplicit false

namespace Reckoner.Decimal

/-- The characters that numerals are made of, their signs included. -/
def isNumeralChar (c : Char) : Bool :=
  c.isDigit || c = '.' || c = 'e' || c = 'E' || c = '+' || c = '-'

/-- No numeral goes on into the text. -/
def Ended (rest : List Char) : Prop :=
  ∀ c, rest.head? = some c → isNumeralChar c = false

theorem ended_nil : Ended [] := by
  intro c first
  cases first

theorem ended_cons {c : Char} (other : isNumeralChar c = false) (rest : List Char) :
    Ended (c :: rest) := by
  rintro _ ⟨⟩
  exact other

theorem fraction_of_ne {c : Char} (other : c ≠ '.') (whole tail : List Char) :
    fraction whole (c :: tail) = ([], c :: tail) := by
  rw [fraction]
  intro others same
  exact other (List.cons.inj same).1

theorem sign_of_ne {c : Char} (minus : c ≠ '-') (plus : c ≠ '+') (tail : List Char) :
    sign (c :: tail) = (false, c :: tail) := by
  rw [sign]
  · intro others same
    exact minus (List.cons.inj same).1
  · intro others same
    exact plus (List.cons.inj same).1

theorem mem_sign {cs : List Char} {c : Char} (minus : c ≠ '-') (plus : c ≠ '+')
    (member : c ∈ cs) : c ∈ (sign cs).2 := by
  cases cs with
  | nil => cases member
  | cons d rest =>
    by_cases negative : d = '-'
    · subst negative
      exact List.mem_of_ne_of_mem minus member
    · by_cases positive : d = '+'
      · subst positive
        exact List.mem_of_ne_of_mem plus member
      · rw [sign_of_ne negative positive]
        exact member

namespace Ended

variable {rest : List Char}

theorem isDigit (ended : Ended rest) : ∀ c, rest.head? = some c → c.isDigit = false := by
  intro c first
  have other := ended c first
  simp only [isNumeralChar, Bool.or_eq_false_iff] at other
  exact other.1.1.1.1.1

theorem ne {tail : List Char} {c : Char} (ended : Ended (c :: tail)) :
    c ≠ '.' ∧ ¬ (c = 'e' ∨ c = 'E') ∧ c ≠ '+' ∧ c ≠ '-' := by
  have other := ended c rfl
  simp only [isNumeralChar, Bool.or_eq_false_iff, decide_eq_false_iff_not] at other
  obtain ⟨⟨⟨⟨⟨_, point⟩, lower⟩, upper⟩, plus⟩, minus⟩ := other
  exact ⟨point, not_or.2 ⟨lower, upper⟩, plus, minus⟩

theorem digitRun (ended : Ended rest) (cs : List Char) :
    digitRun (cs ++ rest) = ((digitRun cs).1, (digitRun cs).2 ++ rest) := by
  induction cs with
  | nil =>
    have noDigits : ∀ c ∈ ([] : List Char), c.isDigit := by
      intro c member
      cases member
    exact digitRun_of_append noDigits ended.isDigit
  | cons c cs ih =>
    obtain ⟨taken, left⟩ := Prod.mk.inj ih
    by_cases digit : c.isDigit
    · simp only [Decimal.digitRun, List.cons_append, List.takeWhile_cons, List.dropWhile_cons,
        digit, if_true, taken, left]
    · simp only [Decimal.digitRun, List.cons_append, List.takeWhile_cons, List.dropWhile_cons,
        digit, if_false, Bool.false_eq_true]

theorem fraction (ended : Ended rest) (whole cs : List Char) :
    fraction whole (cs ++ rest) = ((fraction whole cs).1, (fraction whole cs).2 ++ rest) := by
  cases cs with
  | nil =>
    cases rest with
    | nil => rfl
    | cons c tail => exact fraction_of_ne ended.ne.1 whole tail
  | cons c cs =>
    rw [List.cons_append]
    by_cases point : c = '.'
    · subst point
      simp only [Decimal.fraction, ended.digitRun cs]
      split <;> rfl
    · rw [fraction_of_ne point, fraction_of_ne point, List.cons_append]

theorem sign (ended : Ended rest) (cs : List Char) :
    sign (cs ++ rest) = ((sign cs).1, (sign cs).2 ++ rest) := by
  cases cs with
  | nil =>
    cases rest with
    | nil => rfl
    | cons c tail => exact sign_of_ne ended.ne.2.2.2 ended.ne.2.2.1 tail
  | cons c cs =>
    rw [List.cons_append]
    by_cases minus : c = '-'
    · subst minus
      rfl
    · by_cases plus : c = '+'
      · subst plus
        rfl
      · rw [sign_of_ne minus plus, sign_of_ne minus plus, List.cons_append]

theorem power (ended : Ended rest) (cs : List Char) :
    power (cs ++ rest) = ((power cs).1, (power cs).2 ++ rest) := by
  cases cs with
  | nil =>
    cases rest with
    | nil => rfl
    | cons c tail => simp only [List.nil_append, Decimal.power, ended.ne.2.1, if_false]
  | cons c cs =>
    simp only [List.cons_append, Decimal.power, ended.sign cs, ended.digitRun]
    split
    · obtain ⟨ds, left⟩ := Decimal.digitRun (Decimal.sign cs).2
      cases ds <;> rfl
    · rfl

theorem scan (ended : Ended rest) (cs : List Char) :
    scan (cs ++ rest) = (scan cs).map fun (n, left) => (n, left ++ rest) := by
  simp only [Decimal.scan, ended.digitRun cs, ended.fraction, ended.power]
  split <;> rfl

end Ended

/-- A text is no numeral if a character is in it that numerals are not made of. -/
theorem parse?_eq_none_of_mem {cs : List Char} {c : Char} (member : c ∈ cs)
    (other : isNumeralChar c = false) : parse? cs = none := by
  obtain ⟨front, back, rfl⟩ := List.append_of_mem member
  rw [parse?, (ended_cons other back).scan front]
  cases scan front with
  | none => rfl
  | some found =>
    obtain ⟨n, left⟩ := found
    cases left <;> rfl

end Reckoner.Decimal
