import Reckoner.Proofs.Decimal.Scanning

set_option autoImplicit false

namespace Reckoner.Decimal

def IsFraction (cs : List Char) : Prop :=
  cs = [] ∨ ∃ ds, (∀ c ∈ ds, c.isDigit) ∧ cs = '.' :: ds

/-- Nothing, or a power of ten with its sign. -/
def IsPower (cs : List Char) : Prop :=
  cs = [] ∨ ∃ sign ds, (sign = '-' ∨ sign = '+') ∧ ds ≠ [] ∧ (∀ c ∈ ds, c.isDigit) ∧
    cs = 'e' :: sign :: ds

inductive Written : List Char → Prop
  | of {whole part power : List Char} (nonempty : whole ≠ []) (digits : ∀ c ∈ whole, c.isDigit)
      (fraction : IsFraction part) (raised : IsPower power) : Written (whole ++ (part ++ power))

theorem isDigit_of_mem_toDigits {n : Nat} : ∀ c ∈ Nat.toDigits 10 n, c.isDigit := by
  intro c member
  exact Nat.isDigit_of_mem_toDigits (by decide) (by decide) member

theorem isDigit_of_mem_digits {d : Decimal} : ∀ c ∈ d.digits, c.isDigit :=
  isDigit_of_mem_toDigits

theorem isDigit_of_mem_replicate {n : Nat} : ∀ c ∈ List.replicate n '0', c.isDigit := by
  intro c member
  rw [List.eq_of_mem_replicate member]
  decide

theorem digitRun_of_isDigit {ds : List Char} (digits : ∀ c ∈ ds, c.isDigit) :
    digitRun ds = (ds, []) := by
  have run := digitRun_of_append digits ended_nil.isDigit
  rwa [List.append_nil] at run

/-- Only a number below one is written with a zero at the front. -/
theorem exists_toDigits {n : Nat} (positive : 0 < n) :
    ∃ c rest, Nat.toDigits 10 n = c :: rest ∧ c ≠ '0' := by
  induction n using Nat.strongRecOn with
  | _ n ih =>
    by_cases small : n < 10
    · have solid : ∀ k < 10, 0 < k → k.digitChar ≠ '0' := by decide
      exact ⟨n.digitChar, [], Nat.toDigits_of_lt_base small, solid n small positive⟩
    · obtain ⟨c, rest, front, solid⟩ := ih (n / 10) (by omega) (by omega)
      refine ⟨c, rest ++ [(n % 10).digitChar], ?_, solid⟩
      rw [Nat.toDigits_of_base_le (by decide) (by omega), front, List.cons_append]

theorem IsPower.isDigit {cs : List Char} (power : IsPower cs) :
    ∀ c, cs.head? = some c → c.isDigit = false := by
  rintro c first
  rcases power with rfl | ⟨sign, ds, _, _, _, rfl⟩
  · cases first
  · obtain rfl := Option.some.inj first
    decide

theorem IsPower.exists_power {cs : List Char} (power : IsPower cs) :
    ∃ n, Decimal.power cs = (n, []) := by
  rcases power with rfl | ⟨sign, ds, signed, nonempty, digits, rfl⟩
  · exact ⟨0, rfl⟩
  · have run := digitRun_of_isDigit digits
    cases ds with
    | nil => exact absurd rfl nonempty
    | cons c rest =>
      rcases signed with rfl | rfl
      · refine ⟨-(natOfDigits (c :: rest) : Int), ?_⟩
        simp only [Decimal.power, true_or, if_true, Decimal.sign, run]
      · refine ⟨natOfDigits (c :: rest), ?_⟩
        simp only [Decimal.power, true_or, if_true, Decimal.sign, run, Bool.false_eq_true, if_false]

theorem IsFraction.exists_fraction {whole part power : List Char} (fraction : IsFraction part)
    (nonempty : whole ≠ []) (raised : IsPower power) :
    ∃ ds, Decimal.fraction whole (part ++ power) = (ds, power) := by
  rcases fraction with rfl | ⟨ds, digits, rfl⟩
  · refine ⟨[], ?_⟩
    rcases raised with rfl | ⟨sign, ds, _, _, _, rfl⟩
    · rfl
    · exact fraction_of_ne (by decide) whole _
  · have before := List.isEmpty_eq_false_iff.2 nonempty
    refine ⟨ds, ?_⟩
    simp only [List.cons_append, Decimal.fraction, digitRun_of_append digits raised.isDigit,
      before, Bool.false_and, Bool.false_eq_true, if_false]

theorem Written.exists_scan {cs : List Char} (written : Written cs) :
    ∃ n, scan cs = some (n, []) := by
  obtain @⟨whole, part, power, nonempty, digits, fraction, raised⟩ := written
  have ended : ∀ c, (part ++ power).head? = some c → c.isDigit = false := by
    rcases fraction with rfl | ⟨ds, _, rfl⟩
    · exact raised.isDigit
    · rintro c first
      obtain rfl := Option.some.inj first
      decide
  obtain ⟨ds, fractioned⟩ := fraction.exists_fraction nonempty raised
  obtain ⟨scale, powered⟩ := raised.exists_power
  have before := List.isEmpty_eq_false_iff.2 nonempty
  refine ⟨⟨whole, ds, scale⟩, ?_⟩
  simp only [scan, digitRun_of_append digits ended, fractioned, powered, before, Bool.false_and,
    Bool.false_eq_true, if_false]

theorem Written.exists_cons {cs : List Char} (written : Written cs) :
    ∃ c rest, cs = c :: rest ∧ c.isDigit := by
  obtain @⟨whole, part, power, nonempty, digits, _, _⟩ := written
  cases whole with
  | nil => exact absurd rfl nonempty
  | cons c rest => exact ⟨c, rest ++ (part ++ power), rfl, digits c List.mem_cons_self⟩

theorem written_toDigits (n : Nat) : Written (Nat.toDigits 10 n) := by
  have digits := isDigit_of_mem_toDigits (n := n)
  have written := Written.of Nat.toDigits_ne_nil digits (.inl rfl) (.inl rfl)
  rwa [List.append_nil, List.append_nil] at written

theorem written_point {whole part : List Char} (nonempty : whole ≠ [])
    (digits : ∀ c ∈ whole, c.isDigit) (after : ∀ c ∈ part, c.isDigit) :
    Written (whole ++ '.' :: part) := by
  have written := Written.of nonempty digits (.inr ⟨part, after, rfl⟩) (.inl rfl)
  rwa [List.append_nil] at written

/-- Every digit in its place, and a point where the exponent is negative. -/
theorem positional_cases (d : Decimal) :
    (0 ≤ d.exponent ∧ d.positional = d.digits ++ List.replicate d.exponent.toNat '0') ∨
      (d.exponent < 0 ∧ Written d.positional) := by
  by_cases integral : 0 ≤ d.exponent
  · left
    simp only [positional, integral, if_true, true_and]
  · right
    refine ⟨by omega, ?_⟩
    simp only [positional, integral, if_false]
    split
    · next within =>
      apply written_point
      · rw [← List.length_pos_iff, List.length_take]
        omega
      · exact fun c member => isDigit_of_mem_digits c (List.mem_of_mem_take member)
      · exact fun c member => isDigit_of_mem_digits c (List.mem_of_mem_drop member)
    · have zero : ∀ c ∈ ['0'], c.isDigit := isDigit_of_mem_replicate (n := 1)
      refine written_point (List.cons_ne_nil '0' []) zero ?_
      intro c member
      rcases List.mem_append.1 member with filled | digit
      · exact isDigit_of_mem_replicate c filled
      · exact isDigit_of_mem_digits c digit

theorem written_scientific (d : Decimal) : Written d.scientific := by
  have signed (negative : Prop) [Decidable negative] (n : Nat) :
      IsPower ('e' :: (if negative then '-' else '+') :: Nat.toDigits 10 n) := by
    refine .inr ⟨_, _, ?_, Nat.toDigits_ne_nil, isDigit_of_mem_toDigits, rfl⟩
    split
    · exact .inl rfl
    · exact .inr rfl
  have digits : ∀ c ∈ d.digits, c.isDigit := isDigit_of_mem_digits
  unfold scientific
  simp only
  cases spelled : d.digits with
  | nil => exact absurd spelled d.digits_ne_nil
  | cons c rest =>
    rw [spelled] at digits
    have first : ∀ e ∈ [c], e.isDigit := by
      intro e member
      rw [List.mem_singleton.1 member]
      exact digits c List.mem_cons_self
    cases rest with
    | nil => exact .of (List.cons_ne_nil c []) first (.inl rfl) (signed _ _)
    | cons e others =>
      have after : ∀ x ∈ e :: others, x.isDigit :=
        fun x member => digits x (List.mem_cons_of_mem c member)
      exact .of (List.cons_ne_nil c []) first (.inr ⟨e :: others, after, rfl⟩) (signed _ _)

end Reckoner.Decimal
