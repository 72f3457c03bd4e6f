import Reckoner.Json.Parser
import Reckoner.Json.Printer
import Reckoner.Proofs.Decimal.Written

set_option autoImplicit false

namespace Reckoner.Json

open Decimal (Ended Written isNumeralChar)

def unsigned? (negative : Bool) (body : List Char) : Option (Number × List Char) :=
  if isStrict body then
    match Decimal.scan body with
    | none => none
    | some (n, rest) =>
      match if (Decimal.digitRun body).2 = rest then whole? negative (Decimal.natOfDigits n.whole)
        else none with
      | some i => some (.whole i, rest)
      | none => (real? negative n).map fun x => (x, rest)
  else none

theorem number?_minus (body : List Char) : number? ('-' :: body) = unsigned? true body := rfl

theorem number?_of_ne {c : Char} (other : c ≠ '-') (rest : List Char) :
    number? (c :: rest) = unsigned? false (c :: rest) := by
  unfold number? unsigned?
  split
  next negative body sign =>
    split at sign
    · next same => exact absurd (List.cons.inj same).1 other
    · obtain ⟨rfl, rfl⟩ := Prod.mk.inj sign
      rfl

theorem number?_of_written {body : List Char} (written : Written body) (rest : List Char) :
    number? (body ++ rest) = unsigned? false (body ++ rest) := by
  obtain ⟨c, tail, rfl, digit⟩ := written.exists_cons
  have other : c ≠ '-' := by
    rintro rfl
    cases digit
  exact number?_of_ne other (tail ++ rest)

theorem isStrict_append {rest : List Char} (ended : Ended rest) (body : List Char) :
    isStrict (body ++ rest) = isStrict body := by
  unfold isStrict
  simp only [ended.digitRun body]
  congr 1
  cases (Decimal.digitRun body).2 with
  | nil =>
    cases rest with
    | nil => rfl
    | cons c tail =>
      have point := ended.ne.1
      rw [List.nil_append]
      split
      · next same => exact absurd (List.cons.inj same).1 point
      · next same => exact absurd (List.cons.inj same).1 point
      · rfl
  | cons c left =>
    by_cases point : c = '.'
    · subst point
      cases left with
      | cons d more => rfl
      | nil =>
        cases rest with
        | nil => rfl
        | cons d tail => exact ended.isDigit d rfl
    · -- Without a point in front, neither text asks for a digit after it.
      rw [List.cons_append]
      split
      · next same => exact absurd (List.cons.inj same).1 point
      · next same => exact absurd (List.cons.inj same).1 point
      · split
        · next same => exact absurd (List.cons.inj same).1 point
        · next same => exact absurd (List.cons.inj same).1 point
        · rfl

theorem unsigned?_append {rest : List Char} (ended : Ended rest) (negative : Bool)
    (body : List Char) :
    unsigned? negative (body ++ rest) =
      (unsigned? negative body).map fun (n, left) => (n, left ++ rest) := by
  unfold unsigned?
  rw [isStrict_append ended, ended.scan, ended.digitRun]
  by_cases strict : isStrict body
  · simp only [strict, if_true]
    cases Decimal.scan body with
    | none => rfl
    | some found =>
      obtain ⟨n, left⟩ := found
      simp only [Option.map_some, List.append_cancel_right_eq]
      split
      · rfl
      · cases real? negative n <;> rfl
  · simp only [strict, if_false, Bool.false_eq_true]
    rfl

/-- A written numeral is read as a whole, or not at all. -/
theorem unsigned?_of_written {body : List Char} (written : Written body) (negative : Bool) :
    unsigned? negative body = (unsigned? negative body).map fun (n, _) => (n, []) := by
  obtain ⟨n, scanned⟩ := written.exists_scan
  unfold unsigned?
  split
  · simp only [scanned]
    split
    · rfl
    · cases real? negative n <;> rfl
  · rfl

theorem written_decimalChars (d : Decimal) : Written (decimalChars d) := by
  unfold decimalChars
  simp only
  split
  · rcases d.positional_cases with ⟨integral, placed⟩ | ⟨negative, written⟩
    · have digits : ∀ c ∈ d.digits ++ List.replicate d.exponent.toNat '0', c.isDigit := by
        intro c member
        rcases List.mem_append.1 member with digit | filled
        · exact Decimal.isDigit_of_mem_digits c digit
        · exact Decimal.isDigit_of_mem_replicate c filled
      rw [if_pos integral, placed]
      refine Decimal.written_point ?_ digits (Decimal.isDigit_of_mem_replicate (n := 1))
      exact List.append_ne_nil_of_left_ne_nil d.digits_ne_nil _
    · rw [if_neg (by omega)]
      exact written
  · exact d.written_scientific

inductive Signed : List Char → Prop
  | minus {body : List Char} (written : Written body) : Signed ('-' :: body)
  | plain {body : List Char} (written : Written body) : Signed body

theorem signed_withSign (x : Float) {body : List Char} (written : Written body) :
    Signed (Decimal.withSign x body) := by
  unfold Decimal.withSign
  split
  · exact .minus written
  · exact .plain written

theorem signed_floatChars {x : Float} (finite : x.isFinite) : Signed (floatChars x) := by
  unfold floatChars
  rw [if_pos finite]
  split
  · have zero : ∀ c ∈ ['0'], c.isDigit := Decimal.isDigit_of_mem_replicate (n := 1)
    exact signed_withSign x (Decimal.written_point (List.cons_ne_nil '0' []) zero zero)
  · exact signed_withSign x (written_decimalChars _)

theorem floatChars_of_not_isFinite {x : Float} (other : x.isFinite = false) :
    floatChars x = ['n', 'u', 'l', 'l'] := by
  rw [floatChars, other]
  rfl

theorem signed_whole (i : Int) : Signed (Number.whole i).chars := by
  cases i with
  | ofNat n => exact .plain (Decimal.written_toDigits n)
  | negSucc n => exact .minus (Decimal.written_toDigits (n + 1))

namespace Signed

variable {cs rest : List Char}

theorem exists_cons (signed : Signed cs) :
    ∃ c tail, cs = c :: tail ∧ ∀ d, d ≠ '-' → d.isDigit = false → c ≠ d := by
  cases signed with
  | minus written =>
    refine ⟨'-', _, rfl, ?_⟩
    intro d other _
    exact other.symm
  | plain written =>
    obtain ⟨c, tail, rfl, digit⟩ := written.exists_cons
    refine ⟨c, tail, rfl, ?_⟩
    rintro d _ mark rfl
    rw [mark] at digit
    cases digit

theorem number? (signed : Signed cs) (ended : Ended rest) :
    number? (cs ++ rest) = (Json.number? cs).map fun (n, _) => (n, rest) := by
  have body {digits : List Char} (written : Written digits) (negative : Bool) :
      unsigned? negative (digits ++ rest) =
        (unsigned? negative digits).map fun (n, _) => (n, rest) := by
    rw [unsigned?_append ended, unsigned?_of_written written]
    cases unsigned? negative digits <;> rfl
  cases signed with
  | minus written =>
    rw [List.cons_append, number?_minus, number?_minus]
    exact body written true
  | plain written =>
    have alone := number?_of_written written []
    rw [List.append_nil] at alone
    rw [number?_of_written written, alone]
    exact body written false

theorem scalar? (signed : Signed cs) (ended : Ended rest) :
    scalar? (cs ++ rest) = (Json.number? cs).map fun (n, _) => (number n, rest) := by
  have read := signed.number? ended
  obtain ⟨c, tail, rfl, other⟩ := signed.exists_cons
  have plain (d : Char) (mark : d ≠ '-' ∧ d.isDigit = false) : c ≠ d := other d mark.1 mark.2
  have quoted : quotedString? (c :: tail ++ rest) = none := by
    unfold quotedString?
    split
    · next same => exact absurd (List.cons.inj same).1 (plain '\x22' (by decide))
    · rfl
  unfold Json.scalar?
  split
  · next same => exact absurd (List.cons.inj same).1 (plain 'n' (by decide))
  · next same => exact absurd (List.cons.inj same).1 (plain 't' (by decide))
  · next same => exact absurd (List.cons.inj same).1 (plain 'f' (by decide))
  · simp only [quoted, read, Option.map_map]
    rfl

theorem scalar?_alone (signed : Signed cs) :
    Json.scalar? cs = (Json.number? cs).map fun (n, _) => (number n, []) := by
  have read := signed.scalar? Decimal.ended_nil
  rwa [List.append_nil] at read

end Signed

def Number.reread? (n : Number) : Option Json :=
  (scalar? n.chars).map fun (j, _) => j

theorem scalar?_chars (n : Number) {rest : List Char} (ended : Ended rest) :
    scalar? (n.chars ++ rest) = n.reread?.map fun j => (j, rest) := by
  have read {cs : List Char} (signed : Signed cs) :
      scalar? (cs ++ rest) = ((scalar? cs).map fun (j, _) => j).map fun j => (j, rest) := by
    rw [signed.scalar? ended, signed.scalar?_alone, Option.map_map, Option.map_map]
    rfl
  unfold Number.reread?
  cases n with
  | whole i => exact read (signed_whole i)
  | real x =>
    by_cases finite : x.isFinite
    · exact read (signed_floatChars finite)
    · rw [Number.chars, floatChars_of_not_isFinite (Bool.eq_false_iff.2 finite)]
      rfl

theorem isStrict_toDigits (n : Nat) : isStrict (Nat.toDigits 10 n) := by
  have run := Decimal.digitRun_of_isDigit (Decimal.isDigit_of_mem_toDigits (n := n))
  simp only [isStrict, run, Bool.and_true]
  by_cases zero : n = 0
  · subst zero
    rfl
  · obtain ⟨c, tail, front, solid⟩ := Decimal.exists_toDigits (Nat.pos_of_ne_zero zero)
    rw [front]
    split
    · rfl
    · next same => exact absurd (List.cons.inj same).1 solid
    · next same => cases same
    · rfl

/-- A natural number is read as the count that it is, or as a double if it fits no word. -/
theorem number?_toDigits (n : Nat) :
    number? (Nat.toDigits 10 n) =
      if n < wordLimit then some (.whole n, [])
      else (real? false ⟨Nat.toDigits 10 n, [], 0⟩).map fun x => (x, []) := by
  have run := Decimal.digitRun_of_isDigit (Decimal.isDigit_of_mem_toDigits (n := n))
  have number := number?_of_written (Decimal.written_toDigits n) []
  rw [List.append_nil] at number
  have scanned : Decimal.scan (Nat.toDigits 10 n) = some (⟨Nat.toDigits 10 n, [], 0⟩, []) := by
    have nonempty : (Nat.toDigits 10 n).isEmpty = false :=
      List.isEmpty_eq_false_iff.2 Nat.toDigits_ne_nil
    simp only [Decimal.scan, run, Decimal.fraction, Decimal.power, nonempty, Bool.false_and,
      Bool.false_eq_true, if_false]
  rw [number, unsigned?, if_pos (isStrict_toDigits n)]
  simp only [scanned, run, if_true, whole?, Bool.false_eq_true, if_false, Decimal.natOfDigits,
    Nat.ofDigitChars_ten_toDigits]
  by_cases fits : n < wordLimit
  · simp only [fits, if_true]
    rfl
  · simp only [fits, if_false]

/-- The count that is read where one was written: the same if it fits a word, and else none. -/
def rereadCount? (n : Nat) : Option Nat :=
  if n < wordLimit then some n else none

theorem rereadCount?_eq_some_iff {n : Nat} : rereadCount? n = some n ↔ n < wordLimit := by
  unfold rereadCount?
  split
  · next fits => exact iff_of_true rfl fits
  · next wide => exact iff_of_false (Option.some_ne_none n).symm wide

theorem reread?_count (n : Nat) :
    (Number.whole (.ofNat n)).reread?.bind count? = rereadCount? n := by
  have read := (signed_whole (.ofNat n)).scalar?_alone
  simp only [Number.chars, number?_toDigits] at read
  simp only [Number.reread?, Number.chars, read, rereadCount?]
  by_cases fits : n < wordLimit
  · simp only [fits, if_true]
    rfl
  · simp only [fits, if_false, real?]
    split <;> rfl

def rereadFloat? (x : Float) : Option Float :=
  (number? (floatChars x)).map fun (n, _) => n.toFloat

theorem rereadFloat?_of_not_isFinite {x : Float} (other : x.isFinite = false) :
    rereadFloat? x = none := by
  rw [rereadFloat?, floatChars_of_not_isFinite other]
  rfl

theorem reread?_float (x : Float) : (Number.real x).reread?.bind float? = rereadFloat? x := by
  by_cases finite : x.isFinite
  · have read := (signed_floatChars finite).scalar?_alone
    simp only [Number.reread?, Number.chars, read, rereadFloat?]
    cases number? (floatChars x) <;> rfl
  · have other := Bool.eq_false_iff.2 finite
    rw [rereadFloat?_of_not_isFinite other, Number.reread?, Number.chars,
      floatChars_of_not_isFinite other]
    rfl

end Reckoner.Json
