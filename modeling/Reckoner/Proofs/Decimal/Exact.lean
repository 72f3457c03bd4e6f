import Reckoner.Proofs.Decimal.Longest
import Reckoner.Proofs.Decimal.Written
import Reckoner.Proofs.Double.Comparison
import Reckoner.Proofs.Double.Rounding

set_option autoImplicit false

namespace Reckoner.Double

open Float.Model (UnpackedFloat Format totalExponent)
open Float.Model.UnpackedFloat
open Decimal (hiddenBit signWeight)

/-- A mantissa and an exponent as a double holds them, but for the highest exponent: the mantissa fills
its place, or the exponent is the lowest. -/
structure Canonical (m : Nat) (e : Int) : Prop where
  fits : m < 2 * hiddenBit
  low : -1074 ≤ e
  full : hiddenBit ≤ m ∨ e = -1074

namespace Canonical

variable {m : Nat} {e : Int}

theorem log2_le (canonical : Canonical m e) : m.log2 ≤ 52 := by
  by_cases zero : m = 0
  · rw [zero]
    decide
  · have below : m < 9007199254740992 := canonical.fits
    have bound : m.log2 < 53 := (Nat.log2_lt zero).2 below
    omega

theorem targetExponent_eq (canonical : Canonical m e) :
    Format.binary64.targetExponent (totalExponent m e) = e := by
  change max ((m.log2 : Int) + 1 + e - 53) (-1074) = e
  have upper := canonical.log2_le
  have low := canonical.low
  rcases canonical.full with full | rfl
  · have solid : m ≠ 0 := by
      intro zero
      rw [zero] at full
      cases full
    have lower : 52 ≤ m.log2 := (Nat.le_log2 solid).2 full
    omega
  · omega

end Canonical

section powers

theorem log2_mul_le {a b : Nat} (solid : a ≠ 0) (solid' : b ≠ 0) :
    (a * b).log2 ≤ a.log2 + b.log2 + 1 := by
  have bound : a * b < Nat.pow 2 (a.log2 + 1) * Nat.pow 2 (b.log2 + 1) :=
    Nat.mul_lt_mul'' Nat.lt_log2_self Nat.lt_log2_self
  have joined : Nat.pow 2 (a.log2 + 1) * Nat.pow 2 (b.log2 + 1) =
      Nat.pow 2 (a.log2 + b.log2 + 1 + 1) := by
    have sum : a.log2 + b.log2 + 1 + 1 = a.log2 + 1 + (b.log2 + 1) := by omega
    rw [sum]
    exact (Nat.pow_add 2 _ _).symm
  rw [joined] at bound
  have strict := (Nat.log2_lt (Nat.mul_ne_zero solid solid')).2 bound
  omega

theorem pow_five_pos (k : Nat) : 0 < Nat.pow 5 k :=
  Nat.pow_pos (by decide)

/-- A power of ten is the power of five with that many zeros behind it. -/
theorem pow_ten (k : Nat) : Nat.pow 10 k = Nat.pow 5 k <<< k := by
  rw [Nat.shiftLeft_eq]
  exact Nat.mul_pow 5 2 k

theorem log2_pow_ten (k : Nat) : (Nat.pow 10 k).log2 = (Nat.pow 5 k).log2 + k := by
  rw [pow_ten, log2_shiftLeft (pow_five_pos k)]

end powers

section scientific

variable {m : Nat} {e : Int}

/-- What a mantissa at a power of two is worth is rounded to that mantissa. -/
theorem ofScientific_mul (canonical : Canonical m e) (pos : 0 < m) (whole : 0 ≤ e) :
    ofScientific .binary64 (m * Nat.pow 2 e.toNat) 0 = .finite .positive m e pos := by
  have value : m * Nat.pow 2 e.toNat = m <<< e.toNat := (Nat.shiftLeft_eq m e.toNat).symm
  have solid : ¬ m <<< e.toNat = 0 := by
    rw [Nat.shiftLeft_eq_zero_iff]
    omega
  have place : (-53 : Int) + 0 = e - (e.toNat + 53 : Nat) := by omega
  rw [value]
  unfold ofScientific
  rw [dif_neg solid, if_neg (by change ¬ (2048 : Int) < 0; decide),
    if_neg (by change ¬ (0 : Int) < -((2048 : Int) + _); omega), if_pos (Int.le_refl 0)]
  change roundWithAccuracy .binary64 .positive (m <<< e.toNat <<< 53 * 1) ((-53 : Int) + 0) .exact =
    .finite .positive m e pos
  rw [Nat.mul_one, ← Nat.shiftLeft_add, place]
  exact roundWithAccuracy_shiftLeft pos canonical.targetExponent_eq .positive (e.toNat + 53)

/-- Dividing by a power of ten leaves nothing over if the mantissa has the fives for it and is shifted
far enough for the twos. -/
theorem divCore_pow_ten {k : Nat} (canonical : Canonical m (-(k : Int))) (pos : 0 < m) :
    ∃ l : Nat, divCore .binary64 (m * Nat.pow 5 k) 0 (Nat.pow 10 k) 0 =
      (m <<< l, -(k : Int) - l, .exact) := by
  have solid : m ≠ 0 := by omega
  have fives : Nat.pow 5 k ≠ 0 := Nat.ne_of_gt (pow_five_pos k)
  have size := log2_mul_le solid fives
  have upper := canonical.log2_le
  have low := canonical.low
  let target : Int := min (0 - 0) (Format.binary64.targetExponent
    (totalExponent (m * Nat.pow 5 k) 0 - totalExponent (Nat.pow 10 k) 0))
  -- The mantissa has 53 bits at most, so the quotient is asked for with a unit below `2 ^ (-k)`.
  have enough : target ≤ -k := by
    have wanted : Format.binary64.targetExponent
        (totalExponent (m * Nat.pow 5 k) 0 - totalExponent (Nat.pow 10 k) 0) ≤ -k := by
      change max (((m * Nat.pow 5 k).log2 : Int) + 1 + 0 - ((Nat.pow 10 k).log2 + 1 + 0) - 53)
        (-1074) ≤ -(k : Int)
      rw [log2_pow_ten]
      omega
    exact Int.le_trans (Int.min_le_right _ _) wanted
  obtain ⟨l, shift⟩ : ∃ l : Nat, (0 - 0 - target).toNat = l + k :=
    ⟨(0 - 0 - target).toNat - k, by omega⟩
  have place : target = -k - l := by omega
  have shifted : (m * Nat.pow 5 k) <<< (l + k) = m <<< l * Nat.pow 10 k := by
    rw [pow_ten, Nat.shiftLeft_eq, Nat.shiftLeft_eq, Nat.shiftLeft_eq, Nat.pow_add]
    ac_rfl
  have divisor : 0 < Nat.pow 10 k := Nat.pow_pos (by decide)
  refine ⟨l, ?_⟩
  change ((m * Nat.pow 5 k) <<< (0 - 0 - target).toNat / Nat.pow 10 k, target,
    accuracyOfFraction ((m * Nat.pow 5 k) <<< (0 - 0 - target).toNat % Nat.pow 10 k)
      (Nat.pow 10 k)) = _
  rw [shift, shifted, Nat.mul_div_cancel _ divisor, Nat.mul_mod_left, place]
  rfl

theorem ofScientific_div {k : Nat} (canonical : Canonical m (-(k : Int))) (pos : 0 < m)
    (start : 0 < k) :
    ofScientific .binary64 (m * Nat.pow 5 k) (-(k : Int)) =
      .finite .positive m (-(k : Int)) pos := by
  have solid : ¬ m * Nat.pow 5 k = 0 := Nat.ne_of_gt (Nat.mul_pos pos (pow_five_pos k))
  have low := canonical.low
  obtain ⟨l, quotient⟩ := divCore_pow_ten canonical pos
  have amount : (- -(k : Int)).toNat = k := by omega
  unfold ofScientific
  rw [dif_neg solid, if_neg (by change ¬ (2048 : Int) < -k; omega),
    if_neg (by change ¬ -(k : Int) < -((2048 : Int) + _); omega), if_neg (by omega)]
  change (fun (q : Nat × Int × Accuracy) =>
    roundWithAccuracy .binary64 .positive q.1 q.2.1 q.2.2)
      (divCore .binary64 (m * Nat.pow 5 k) 0 (Nat.pow 10 (- -(k : Int)).toNat) 0) = _
  rw [amount, quotient]
  exact roundWithAccuracy_shiftLeft pos canonical.targetExponent_eq .positive l

end scientific

section doubles

variable {x : Float} {s : Sign} {m : Nat} {e : Int} {pos : 0 < m}

theorem toNat_bits (x : Float) : x.toBits.toNat = (bits x).toNat :=
  rfl

theorem isNegative_iff (x : Float) : Decimal.isNegative x = true ↔ signOf x = .negative := by
  have bound : (bits x).toNat < 18446744073709551616 := (bits x).isLt
  have sign := toNat_unpackSign (b := bits x)
  rw [Decimal.isNegative, decide_eq_true_eq, toNat_bits, signOf]
  rcases BitVec.eq_zero_or_eq_one (unpackSign (bits x)) with zero | one
  · rw [zero] at sign ⊢
    change 0 = (bits x).toNat / 9223372036854775808 at sign
    change 9223372036854775808 ≤ (bits x).toNat ↔ Sign.positive = Sign.negative
    constructor
    · intro set
      omega
    · intro impossible
      cases impossible
  · rw [one] at sign ⊢
    change 1 = (bits x).toNat / 9223372036854775808 at sign
    change 9223372036854775808 ≤ (bits x).toNat ↔ Sign.negative = Sign.negative
    constructor
    · intro _
      rfl
    · intro _
      omega

theorem binary_eq (x : Float) : Decimal.binary x =
    if (unpackExponent (bits x)).toNat = 0 then ((unpackMantissa (bits x)).toNat, -1074)
    else ((unpackMantissa (bits x)).toNat + hiddenBit,
      Int.ofNat (unpackExponent (bits x)).toNat - 1075) := by
  have unsigned : (bits x).toNat % signWeight % hiddenBit = (bits x).toNat % hiddenBit :=
    Nat.mod_mod_of_dvd _ (by decide)
  rw [toNat_unpackExponent, toNat_unpackMantissa, ← unsigned]
  rfl

theorem binary_of_unpack (unpacked : x.toModel.unpack = .finite s m e pos) :
    signOf x = s ∧ Decimal.binary x = (m, e) ∧ Canonical m e := by
  have fields := fields_double x
  have fits : (unpackMantissa (bits x)).toNat < hiddenBit := (unpackMantissa (bits x)).isLt
  rw [unpacked] at fields
  rw [binary_eq]
  generalize signOf x = sign at fields ⊢
  generalize (unpackExponent (bits x)).toNat = k at fields ⊢
  generalize (unpackMantissa (bits x)).toNat = n at fields fits ⊢
  cases fields with
  | subnormal _ => exact ⟨rfl, rfl, by omega, by omega, .inr rfl⟩
  | normal start stop _ =>
    rw [if_neg (by omega), Nat.add_comm]
    exact ⟨rfl, rfl, by omega, by omega, .inl (by omega)⟩

/-- All digits of a positive double are read as that double. -/
theorem toFloat_exact (unpacked : x.toModel.unpack = .finite .positive m e pos) :
    (Decimal.exact x).toFloat = x := by
  obtain ⟨_, binary, canonical⟩ := binary_of_unpack unpacked
  have rounded : ofScientific .binary64 (Decimal.exact x).coefficient (Decimal.exact x).exponent =
      .finite .positive m e pos := by
    unfold Decimal.exact
    rw [binary]
    simp only
    split
    · next whole => exact ofScientific_mul canonical pos whole
    · next part =>
      obtain ⟨k, rfl⟩ : ∃ k : Nat, e = -(k : Int) := ⟨(-e).toNat, by omega⟩
      have amount : (- -(k : Int)).toNat = k := by omega
      rw [amount]
      exact ofScientific_div canonical pos (by omega)
  have packed : pack .binary64 x.toModel.unpack = bits x := pack_unpack_of_valid x.toModel.valid
  rw [unpacked, ← rounded] at packed
  apply Float.toBits_inj.1
  exact UInt64.toBitVec_inj.1 packed

end doubles

end Reckoner.Double

namespace Reckoner.Decimal

section positional

variable {d : Decimal}

theorem natOfDigits_zeros (k : Nat) (ds : List Char) :
    natOfDigits (List.replicate k '0' ++ ds) = natOfDigits ds := by
  rw [natOfDigits, natOfDigits, Nat.ofDigitChars_append, Nat.ofDigitChars_replicate_zero,
    Nat.mul_zero]

theorem spells_point {whole part : List Char} (digits : ∀ c ∈ whole, c.isDigit)
    (nonempty : whole ≠ []) (after : ∀ c ∈ part, c.isDigit) :
    Spells (whole ++ '.' :: part) ⟨whole, part, 0⟩ := by
  have spelled := Spells.of digits (.point after) (.inl nonempty) .none
  rwa [List.append_nil] at spelled

/-- The positional notation of a decimal without zeros to fill in at the end is a numeral that stands
for it. -/
theorem exists_spells_positional (low : d.exponent ≤ 0) :
    ∃ n, Spells d.positional n ∧ n.value = d := by
  have digits := isDigit_of_mem_digits (d := d)
  have coefficient := natOfDigits_digits d
  by_cases integral : 0 ≤ d.exponent
  · have zero : d.exponent = 0 := by omega
    have spelled := Spells.of digits .none (.inl d.digits_ne_nil) .none
    refine ⟨⟨d.digits, [], 0⟩, ?_, ?_⟩
    · simp only [positional, zero, Int.le_refl, if_true, Int.toNat_zero, List.replicate_zero]
      exact spelled
    · simp only [Numeral.value, List.append_nil, coefficient, List.length_nil]
      exact congrArg (Decimal.mk d.coefficient) zero.symm
  · have exponent : d.exponent = 0 - ((-d.exponent).toNat : Int) := by omega
    simp only [positional, integral, if_false]
    split
    · next within =>
      have front : d.digits.take (d.digits.length - (-d.exponent).toNat) ≠ [] := by
        rw [← List.length_pos_iff, List.length_take]
        omega
      refine ⟨_, spells_point (fun c member => digits c (List.mem_of_mem_take member)) front
        (fun c member => digits c (List.mem_of_mem_drop member)), ?_⟩
      have places : (d.digits.drop (d.digits.length - (-d.exponent).toNat)).length =
          (-d.exponent).toNat := by
        rw [List.length_drop]
        omega
      rw [Numeral.value, List.take_append_drop, coefficient, places, ← exponent]
    · next beyond =>
      have zero : ∀ c ∈ ['0'], c.isDigit := isDigit_of_mem_replicate (n := 1)
      have after : ∀ c ∈ List.replicate ((-d.exponent).toNat - d.digits.length) '0' ++ d.digits,
          c.isDigit := by
        intro c member
        rcases List.mem_append.1 member with filled | digit
        · exact isDigit_of_mem_replicate c filled
        · exact digits c digit
      refine ⟨_, spells_point zero (List.cons_ne_nil '0' []) after, ?_⟩
      have places : (List.replicate ((-d.exponent).toNat - d.digits.length) '0' ++
          d.digits).length = (-d.exponent).toNat := by
        rw [List.length_append, List.length_replicate]
        omega
      have filled := natOfDigits_zeros ((-d.exponent).toNat - d.digits.length + 1) d.digits
      rw [List.replicate_succ, List.cons_append] at filled
      rw [Numeral.value, places, ← exponent]
      exact congrArg (fun n => Decimal.mk n d.exponent) (filled.trans coefficient)

theorem parse?_positional (low : d.exponent ≤ 0) : parse? d.positional = some d :=
  parse?_eq_some_iff.2 (exists_spells_positional low)

end positional

section plain

open Float.Model Float.Model.UnpackedFloat

variable {x : Float} {s : Sign} {m : Nat} {e : Int} {pos : 0 < m}

theorem exponent_exact_le (x : Float) : (exact x).exponent ≤ 0 := by
  unfold exact
  simp only
  split
  · exact Int.le_refl 0
  · next part => exact Int.le_of_lt (Int.not_le.1 part)

theorem isNaN_of_finite (unpacked : x.toModel.unpack = .finite s m e pos) : x.isNaN = false := by
  change x.toModel.unpack.isNaN = false
  rw [unpacked]
  rfl

theorem isInf_of_finite (unpacked : x.toModel.unpack = .finite s m e pos) : x.isInf = false := by
  change x.toModel.unpack.isInf = false
  rw [unpacked]
  rfl

theorem ne_zero_of_finite (unpacked : x.toModel.unpack = .finite s m e pos) :
    (x == 0) = false := by
  change (x.toModel.unpack.compare (.zero .positive) == some .eq) = false
  rw [unpacked]
  cases s <;> rfl

/-- The shortest decimal for a positive double is a numeral that is read as the double. -/
theorem exists_spells_shortest (unpacked : x.toModel.unpack = .finite .positive m e pos) :
    ∃ n, Spells (shortest .up (positionalReadsBack x) x).positional n ∧ n.value.toFloat = x := by
  have exactly : positionalReadsBack x (exact x) = true := by
    rw [positionalReadsBack, parse?_positional (exponent_exact_le x), Option.any_some,
      Double.toFloat_exact unpacked, Double.beq_self, isNaN_of_finite unpacked]
    rfl
  have back := readsBack_shortest .up exactly
  rw [positionalReadsBack, Option.any_eq_true] at back
  obtain ⟨d, read, same⟩ := back
  obtain ⟨n, spelled, rfl⟩ := parse?_eq_some_iff.1 read
  rw [BEq.comm] at same
  exact ⟨n, spelled, (Double.eq_of_beq_of_ne_zero same (ne_zero_of_finite unpacked)).symm⟩

/-- A double without its sign is the same, turned positive. -/
theorem unpack_size (unpacked : x.toModel.unpack = .finite s m e pos) :
    (size x).toModel.unpack = .finite .positive m e pos := by
  obtain ⟨rfl, _, _⟩ := Double.binary_of_unpack unpacked
  unfold size
  split
  · next negative =>
    rw [Double.unpack_neg, unpacked, (Double.isNegative_iff x).1 negative]
    rfl
  · next positive =>
    have sign : Double.signOf x = .positive := by
      cases turned : Double.signOf x with
      | negative => exact absurd ((Double.isNegative_iff x).2 turned) positive
      | positive => rfl
    rw [unpacked, sign]

theorem signed_size (x : Float) : signed (isNegative x) (size x) = x := by
  unfold size
  cases isNegative x
  · rfl
  · exact Double.neg_neg x

/-- The positional notation of a finite double is a numeral, and it is read as that double. -/
theorem exists_spellsSigned_plain (unpacked : x.toModel.unpack = .finite s m e pos) :
    ∃ n, SpellsSigned (plain x) (isNegative x) n ∧
      signed (isNegative x) n.value.toFloat = x := by
  obtain ⟨n, spelled, value⟩ := exists_spells_shortest (unpack_size unpacked)
  have marked (negative : Bool) (written : List Char) (spelled : Spells written n) :
      SpellsSigned (if negative then '-' :: written else written) negative n := by
    cases negative
    · exact .of .none spelled
    · exact .of .minus spelled
  refine ⟨n, ?_, ?_⟩
  · simp only [plain, ne_zero_of_finite unpacked, Bool.false_eq_true, if_false]
    exact marked (isNegative x) _ spelled
  · rw [value, signed_size]

end plain

end Reckoner.Decimal
