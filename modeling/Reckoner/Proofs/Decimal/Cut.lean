import Reckoner.Proofs.Decimal.Longest

set_option autoImplicit false

namespace Reckoner.Decimal

def bytes (cs : List Char) : List UInt8 :=
  cs.flatMap String.utf8EncodeChar

def isDigitByte (b : UInt8) : Bool :=
  48 ≤ b.toNat && b.toNat ≤ 57

def marked (bs : List UInt8) (place : Nat) (marks : List Char) : Bool :=
  bs[place]?.any fun b => marks.any fun c => c.toNat = b.toNat

def digitsEnd (bs : List UInt8) (place : Nat) : Nat :=
  place + ((bs.drop place).takeWhile isDigitByte).length

def signEnd (bs : List UInt8) (place : Nat) : Nat :=
  if marked bs place ['+', '-'] then place + 1 else place

/-- The place after a point and the digits behind it, if there are digits behind it or from `start` to
it. -/
def pointEnd (bs : List UInt8) (start place : Nat) : Nat :=
  let stop := digitsEnd bs (place + 1)
  if marked bs place ['.'] && (start < place || place + 1 < stop) then stop else place

/-- The place after a power of ten, if there are digits in it. -/
def powerEnd (bs : List UInt8) (place : Nat) : Nat :=
  let start := signEnd bs (place + 1)
  let stop := digitsEnd bs start
  if marked bs place ['e', 'E'] && start < stop then stop else place

/-- The place after the numeral that a text begins with, its sign included. -/
def numeralEnd? (bs : List UInt8) : Option Nat :=
  let start := signEnd bs 0
  let stop := pointEnd bs start (digitsEnd bs start)
  if start < stop then some (powerEnd bs stop) else none

/-- At a place the bytes of the characters begin, and with them all ends. -/
def StandsAt (bs : List UInt8) (place : Nat) (cs : List Char) : Prop :=
  ∃ front, bs = front ++ bytes cs ∧ front.length = place

section bytes

@[simp] theorem bytes_cons (c : Char) (cs : List Char) :
    bytes (c :: cs) = String.utf8EncodeChar c ++ bytes cs :=
  List.flatMap_cons

theorem bytes_append (first second : List Char) :
    bytes (first ++ second) = bytes first ++ bytes second :=
  List.flatMap_append

/-- A character below 128 is one byte, and each other one begins with a byte that is not below. -/
theorem utf8EncodeChar_cases (c : Char) :
    (c.toNat < 128 ∧ String.utf8EncodeChar c = [UInt8.ofNat c.toNat]) ∨
      128 ≤ c.toNat ∧ ∃ b more, String.utf8EncodeChar c = b :: more ∧ 128 ≤ b.toNat := by
  have size {n : Nat} (small : n < 64) : 128 ≤ (UInt8.ofNat (n + 192)).toNat := by
    rw [UInt8.toNat_ofNat']
    omega
  change (c.val.toNat < 128 ∧ _) ∨ 128 ≤ c.val.toNat ∧ _
  unfold String.utf8EncodeChar
  simp only
  split
  · next small => exact .inl ⟨by omega, rfl⟩
  · next large =>
    refine .inr ⟨by omega, ?_⟩
    split
    · exact ⟨_, _, rfl, size (by omega)⟩
    · split
      · refine ⟨_, _, rfl, ?_⟩
        rw [UInt8.toNat_ofNat']
        omega
      · refine ⟨_, _, rfl, ?_⟩
        rw [UInt8.toNat_ofNat']
        omega

theorem isDigitByte_of_ascii {c : Char} (ascii : c.toNat < 128) :
    isDigitByte (UInt8.ofNat c.toNat) = c.isDigit := by
  have value : (UInt8.ofNat c.toNat).toNat = c.toNat := by
    rw [UInt8.toNat_ofNat']
    omega
  rw [Bool.eq_iff_iff, Char.isDigit_iff_toNat, isDigitByte, value, Bool.and_eq_true,
    decide_eq_true_eq, decide_eq_true_eq]
  rfl

theorem toNat_lt_of_isDigit {c : Char} (digit : c.isDigit) : c.toNat < 128 := by
  have bound : c.toNat ≤ 57 := (Char.isDigit_iff_toNat.1 digit).2
  omega

theorem length_bytes (ds : List Char) (digits : ∀ c ∈ ds, c.isDigit) :
    (bytes ds).length = ds.length := by
  induction ds with
  | nil => rfl
  | cons c rest ih =>
    obtain ⟨digit, others⟩ := List.forall_mem_cons.1 digits
    rcases utf8EncodeChar_cases c with ⟨_, one⟩ | ⟨beyond, _⟩
    · rw [bytes_cons, one, List.singleton_append, List.length_cons, ih others, List.length_cons]
    · have ascii := toNat_lt_of_isDigit digit
      omega

theorem takeWhile_bytes (cs : List Char) :
    (bytes cs).takeWhile isDigitByte = bytes (digitRun cs).1 := by
  induction cs with
  | nil => rfl
  | cons c rest ih =>
    rcases utf8EncodeChar_cases c with ⟨ascii, one⟩ | ⟨beyond, b, more, parts, large⟩
    · simp only [bytes_cons, one, List.singleton_append, List.takeWhile_cons,
        isDigitByte_of_ascii ascii, ih, digitRun]
      cases c.isDigit with
      | true => simp only [if_true, bytes_cons, one, List.singleton_append]
      | false => rfl
    · have other : c.isDigit = false := by
        rw [← Bool.not_eq_true]
        intro digit
        have ascii := toNat_lt_of_isDigit digit
        omega
      have other' : isDigitByte b = false := by
        rw [isDigitByte, Bool.and_eq_false_iff, decide_eq_false_iff_not, decide_eq_false_iff_not]
        omega
      simp only [bytes_cons, parts, List.cons_append, List.takeWhile_cons, other', other, digitRun,
        Bool.false_eq_true, if_false]
      rfl

end bytes

section places

variable {bs : List UInt8} {place : Nat} {cs : List Char}

namespace StandsAt

theorem drop (stands : StandsAt bs place cs) : bs.drop place = bytes cs := by
  obtain ⟨front, rfl, rfl⟩ := stands
  exact List.drop_left

theorem next {c : Char} (stands : StandsAt bs place (c :: cs)) (ascii : c.toNat < 128) :
    StandsAt bs (place + 1) cs := by
  obtain ⟨front, rfl, rfl⟩ := stands
  rcases utf8EncodeChar_cases c with ⟨_, one⟩ | ⟨beyond, _⟩
  · refine ⟨front ++ [UInt8.ofNat c.toNat], ?_, ?_⟩
    · rw [bytes_cons, one, List.append_assoc]
    · rw [List.length_append, List.length_singleton]
  · omega

theorem marked_eq (stands : StandsAt bs place cs) (marks : List Char)
    (ascii : marks.all fun c => c.toNat < 128) :
    marked bs place marks = cs.head?.any fun c => decide (c ∈ marks) := by
  have here : bs[place]? = (bytes cs)[0]? := by
    rw [← stands.drop, List.getElem?_drop, Nat.add_zero]
  rw [marked, here]
  cases cs with
  | nil => rfl
  | cons c rest =>
    rw [bytes_cons, List.head?_cons, Option.any_some, Bool.eq_iff_iff, decide_eq_true_eq]
    rcases utf8EncodeChar_cases c with ⟨small, one⟩ | ⟨beyond, b, more, parts, large⟩
    · have value : (UInt8.ofNat c.toNat).toNat = c.toNat := by
        rw [UInt8.toNat_ofNat']
        omega
      simp only [one, List.singleton_append, List.getElem?_cons_zero, Option.any_some, value,
        List.any_eq_true, decide_eq_true_eq, Char.toNat_inj, exists_eq_right]
    · simp only [parts, List.cons_append, List.getElem?_cons_zero, Option.any_some,
        List.any_eq_true, decide_eq_true_eq]
      constructor
      · rintro ⟨m, member, same⟩
        have small := of_decide_eq_true (List.all_eq_true.1 ascii m member)
        omega
      · intro member
        have small := of_decide_eq_true (List.all_eq_true.1 ascii c member)
        omega

theorem digits (stands : StandsAt bs place cs) :
    digitsEnd bs place = place + (digitRun cs).1.length ∧
      StandsAt bs (digitsEnd bs place) (digitRun cs).2 := by
  have size := length_bytes (digitRun cs).1 fun _ => isDigit_of_mem_digitRun
  have stop : digitsEnd bs place = place + (digitRun cs).1.length := by
    rw [digitsEnd, stands.drop, takeWhile_bytes, size]
  refine ⟨stop, ?_⟩
  obtain ⟨front, rfl, rfl⟩ := stands
  refine ⟨front ++ bytes (digitRun cs).1, ?_, ?_⟩
  · rw [List.append_assoc, ← bytes_append, digitRun_append]
  · rw [stop, List.length_append, size]

theorem sign (stands : StandsAt bs place cs) :
    StandsAt bs (signEnd bs place) (Decimal.sign cs).2 := by
  have marked := stands.marked_eq ['+', '-'] (by decide)
  rw [signEnd, marked]
  cases cs with
  | nil => exact stands
  | cons c rest =>
    by_cases minus : c = '-'
    · subst minus
      exact stands.next (by decide)
    · by_cases plus : c = '+'
      · subst plus
        exact stands.next (by decide)
      · have other : c ∉ ['+', '-'] := by
          simp only [List.mem_cons, List.not_mem_nil, minus, plus, or_self, not_false_eq_true]
        rw [sign_of_ne minus plus, List.head?_cons, Option.any_some, decide_eq_false other]
        exact stands

theorem point (stands : StandsAt bs place cs) {start : Nat} {whole : List Char}
    (digits : place = start + whole.length) :
    StandsAt bs (pointEnd bs start place) (fraction whole cs).2 ∧
      (start < pointEnd bs start place ↔ whole ≠ [] ∨ (fraction whole cs).1 ≠ []) := by
  have marked := stands.marked_eq ['.'] (by decide)
  have still : start < place ↔ whole ≠ [] ∨ ([] : List Char) ≠ [] := by
    simp only [ne_eq, not_true_eq_false, or_false]
    rw [← List.length_eq_zero_iff]
    omega
  cases cs with
  | nil =>
    rw [pointEnd, marked]
    exact ⟨stands, still⟩
  | cons c rest =>
    rw [List.head?_cons, Option.any_some] at marked
    by_cases point : c = '.'
    · subst point
      obtain ⟨stop, behind⟩ := (stands.next (by decide)).digits
      rw [pointEnd, marked, stop, fraction]
      rw [stop] at behind
      by_cases empty : whole = [] ∧ (digitRun rest).1 = []
      · obtain ⟨rfl, none⟩ := empty
        simp only [List.length_nil, Nat.add_zero] at digits
        simpa [none, digits] using stands
      · have digit := Decidable.not_and_iff_not_or_not.1 empty
        have beside := isEmpty_and_eq_false_iff.2 digit
        have some : start < place ∨ place + 1 < place + 1 + (digitRun rest).1.length := by
          rcases digit with before | after
          · have length := List.length_pos_iff.2 before
            omega
          · have length := List.length_pos_iff.2 after
            omega
        simp only [List.mem_singleton, decide_true, Bool.true_and, Bool.or_eq_true,
          decide_eq_true_eq, some, if_true, beside, Bool.false_eq_true, if_false]
        refine ⟨behind, iff_of_true ?_ digit⟩
        omega
    · rw [pointEnd, marked, decide_eq_false (fun within => point (List.mem_singleton.1 within)),
        fraction_of_ne point]
      exact ⟨stands, still⟩

theorem power (stands : StandsAt bs place cs) :
    StandsAt bs (powerEnd bs place) (Decimal.power cs).2 := by
  have marked := stands.marked_eq ['e', 'E'] (by decide)
  cases cs with
  | nil =>
    rw [powerEnd, marked]
    exact stands
  | cons c rest =>
    have member : (c ∈ ['e', 'E']) ↔ (c = 'e' ∨ c = 'E') := by
      simp only [List.mem_cons, List.not_mem_nil, or_false]
    rw [List.head?_cons, Option.any_some] at marked
    by_cases letter : c = 'e' ∨ c = 'E'
    · have ascii : c.toNat < 128 := by
        rcases letter with rfl | rfl <;> decide
      obtain ⟨stop, behind⟩ := (stands.next ascii).sign.digits
      rw [powerEnd, marked, decide_eq_true (member.2 letter), Bool.true_and, stop]
      rw [stop] at behind
      simp only [Decimal.power, letter, if_true]
      generalize digitRun (Decimal.sign rest).2 = run at behind ⊢
      obtain ⟨ds, after⟩ := run
      cases ds with
      | nil => simpa using stands
      | cons d others => simpa using behind
    · rw [powerEnd, marked, decide_eq_false (fun within => letter (member.1 within))]
      simpa [Decimal.power, letter] using stands

end StandsAt

end places

/-- The place found byte by byte is the one where the rest begins that a scan leaves. -/
theorem numeralEnd?_bytes (cs : List Char) :
    (scan (sign cs).2 = none ∧ numeralEnd? (bytes cs) = none) ∨
      ∃ n rest place, scan (sign cs).2 = some (n, rest) ∧ numeralEnd? (bytes cs) = some place ∧
        StandsAt (bytes cs) place rest := by
  have front : StandsAt (bytes cs) 0 cs := ⟨[], rfl, rfl⟩
  have body := front.sign
  obtain ⟨stop, behind⟩ := body.digits
  obtain ⟨pointed, solid⟩ := behind.point stop
  have raised := pointed.power
  simp only [scan, numeralEnd?]
  rw [← isEmpty_and_eq_false_iff] at solid
  cases beside : (digitRun (sign cs).2).1.isEmpty &&
      (fraction (digitRun (sign cs).2).1 (digitRun (sign cs).2).2).1.isEmpty with
  | true =>
    left
    rw [beside, Bool.true_eq_false, iff_false] at solid
    rw [if_neg solid]
    exact ⟨rfl, rfl⟩
  | false =>
    right
    rw [if_pos (solid.2 beside)]
    exact ⟨_, _, _, rfl, rfl, raised⟩

/-- A power without digits is given back, and a point with digits on one side only is kept. -/
example : numeralEnd? (bytes "+.5e+".toList) = some 3 ∧ numeralEnd? (bytes "1.e5".toList) = some 4 := by
  decide

end Reckoner.Decimal
