import Mathlib

set_option autoImplicit false

namespace Reckoner.Text

/-- The last `k` digits of a number in base 64, as the bytes that stand for them in UTF-8. -/
def continuation : Nat → Nat → List UInt8
  | 0, _ => []
  | k + 1, v => UInt8.ofNat (v / 64 ^ k % 64 + 0x80) :: continuation k v

/-- Which byte the form of a character begins with, and how many digits follow it. -/
inductive Lead (v : Nat) : Nat → Nat → Prop
  | one (below : v < 0x80) : Lead v 0 v
  | two (start : 0x80 ≤ v) (below : v < 0x800) : Lead v 1 (v / 64 + 0xC0)
  | three (start : 0x800 ≤ v) (below : v < 0x10000) : Lead v 2 (v / 4096 + 0xE0)
  | four (start : 0x10000 ≤ v) (below : v < 0x110000) : Lead v 3 (v / 262144 + 0xF0)

theorem exists_lead (c : Char) :
    ∃ k lead, Lead c.val.toNat k lead ∧
      String.utf8EncodeChar c = UInt8.ofNat lead :: continuation k c.val.toNat := by
  have bound : c.val.toNat < 0x110000 := by
    have valid : c.val.toNat.isValidChar := c.valid
    simp only [Nat.isValidChar] at valid
    omega
  have digit {n m : Nat} (small : n < m) : n % m = n := Nat.mod_eq_of_lt small
  unfold String.utf8EncodeChar
  simp only
  split
  · exact ⟨0, _, .one (by omega), rfl⟩
  · split
    · refine ⟨1, _, .two (by omega) (by omega), ?_⟩
      rw [digit (by omega)]
      simp only [continuation, Nat.pow_zero, Nat.div_one]
    · split
      · refine ⟨2, _, .three (by omega) (by omega), ?_⟩
        rw [digit (by omega)]
        simp only [continuation, Nat.pow_zero, Nat.pow_one, Nat.div_one]
      · refine ⟨3, _, .four (by omega) bound, ?_⟩
        rw [digit (by omega)]
        simp only [continuation, Nat.pow_zero, Nat.pow_one, Nat.div_one, Nat.reducePow]

variable {m n v w j k : Nat} {xs ys : List UInt8}

/-- The first byte of the smaller character is smaller, or the forms differ in the digits alone. -/
theorem Lead.lt_or_eq (first : Lead v k m) (second : Lead w j n) (less : v < w) :
    n < 256 ∧ (m < n ∨ m = n ∧ k = j ∧ v / 64 ^ k = w / 64 ^ k) := by
  cases first <;> cases second <;>
    simp only [Nat.pow_zero, Nat.pow_one, Nat.reducePow, true_and] <;> omega

theorem ofNat_cons_lt (small : n < 256) (less : m < n) :
    UInt8.ofNat m :: xs < UInt8.ofNat n :: ys := by
  apply List.Lex.rel
  rw [UInt8.lt_iff_toNat_lt, UInt8.toNat_ofNat', UInt8.toNat_ofNat']
  omega

theorem ofNat_cons_lt_of_eq (same : m = n) (later : xs < ys) :
    UInt8.ofNat m :: xs < UInt8.ofNat n :: ys := by
  subst same
  exact List.Lex.cons later

/-- Numbers that agree but for some digits are in the order of these. -/
theorem continuation_append_lt (same : v / 64 ^ k = w / 64 ^ k) (less : v < w) :
    continuation k v ++ xs < continuation k w ++ ys := by
  induction k with
  | zero =>
    simp only [Nat.pow_zero, Nat.div_one] at same
    omega
  | succ k ih =>
    have ordered : v / 64 ^ k ≤ w / 64 ^ k := Nat.div_le_div_right (Nat.le_of_lt less)
    rw [Nat.pow_succ, ← Nat.div_div_eq_div_mul, ← Nat.div_div_eq_div_mul] at same
    by_cases digits : v / 64 ^ k = w / 64 ^ k
    · apply ofNat_cons_lt_of_eq
      · rw [digits]
      · exact ih digits
    · apply ofNat_cons_lt
      · omega
      · omega

/-- A smaller character has smaller bytes, whatever follows either. -/
theorem utf8EncodeChar_append_lt {c d : Char} (less : c < d) (xs ys : List UInt8) :
    String.utf8EncodeChar c ++ xs < String.utf8EncodeChar d ++ ys := by
  obtain ⟨k, m, first, form⟩ := exists_lead c
  obtain ⟨j, n, second, form'⟩ := exists_lead d
  obtain ⟨small, smaller | ⟨same, rfl, agree⟩⟩ := first.lt_or_eq second less
  · rw [form, form']
    exact ofNat_cons_lt small smaller
  · rw [form, form']
    exact ofNat_cons_lt_of_eq same (continuation_append_lt agree less)

theorem flatMap_utf8EncodeChar_lt {cs ds : List Char} (less : cs < ds) :
    cs.flatMap String.utf8EncodeChar < ds.flatMap String.utf8EncodeChar := by
  induction less with
  | nil =>
    next d ds =>
    obtain ⟨k, n, -, form⟩ := exists_lead d
    rw [List.flatMap_cons, form]
    exact List.Lex.nil
  | rel smaller =>
    rw [List.flatMap_cons, List.flatMap_cons]
    exact utf8EncodeChar_append_lt smaller _ _
  | cons _ ih =>
    rw [List.flatMap_cons, List.flatMap_cons]
    exact List.append_left_lt ih

theorem data_toByteArray (s : String) :
    s.toByteArray.data.toList = s.toList.flatMap String.utf8EncodeChar := by
  rw [← String.utf8Encode_toList, List.utf8Encode]
  simp

/-- One text is before another exactly if its bytes are. -/
theorem lt_iff_bytes_lt {s t : String} :
    s < t ↔ s.toByteArray.data.toList < t.toByteArray.data.toList := by
  have forward {s t : String} (less : s < t) :
      s.toByteArray.data.toList < t.toByteArray.data.toList := by
    rw [data_toByteArray, data_toByteArray]
    exact flatMap_utf8EncodeChar_lt less
  constructor
  · exact forward
  · intro less
    apply Decidable.byContradiction
    intro notLess
    by_cases same : s = t
    · rw [same] at less
      exact List.lt_irrefl _ less
    · have greater : t < s := by
        apply Decidable.byContradiction
        intro notGreater
        exact same (String.le_antisymm notGreater notLess)
      exact List.lt_asymm less (forward greater)

end Reckoner.Text
