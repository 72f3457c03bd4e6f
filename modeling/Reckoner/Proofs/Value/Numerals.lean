import Reckoner.Proofs.Decimal.Lenient
import Reckoner.Proofs.Double.Comparison
import Reckoner.Proofs.Double.Rounding
import Reckoner.Proofs.Lexicon.Standard
import Reckoner.Proofs.Value.Coercion

set_option autoImplicit false

namespace Reckoner.Value

open Decimal (Signs Spells SpellsSigned Numeral sign signed infinity noNumber parse? read?
  isNumeralChar isNumeralChar_toLower)

/-- The texts without blanks at their ends that count as numbers, with the number of each. -/
inductive Counts : List Char → Float → Prop
  | blank : Counts [] 0
  | infinity {front : List Char} {negative : Bool} (marked : Signs front negative) :
      Counts (front ++ "Infinity".toList) (signed negative infinity)
  | numeral {cs : List Char} {negative : Bool} {n : Numeral}
      (spelled : SpellsSigned cs negative n) : Counts cs (signed negative n.value.toFloat)

/-- Texts that look like numbers and count as none. -/
inductive Refused : List Char → Prop
  /-- The words of the usual reader, but for `Infinity` in just this case. -/
  | word {front body : List Char} {negative : Bool} (marked : Signs front negative)
      (known : body.map Char.toLower ∈ ["inf".toList, "infinity".toList, "nan".toList])
      (other : body ≠ "Infinity".toList) : Refused (front ++ body)
  /-- A second sign, or a blank after the sign. -/
  | detached {a b : Char} (marked : a = '-' ∨ a = '+')
      (other : b = '-' ∨ b = '+' ∨ Text.isBlank b) (rest : List Char) : Refused (a :: b :: rest)
  | separated {cs : List Char} {c : Char} (separator : c = '_' ∨ c = ',') (member : c ∈ cs) :
      Refused cs
  /-- Another base than ten. -/
  | based {front : List Char} {negative : Bool} {mark : Char} (marked : Signs front negative)
      (base : mark.toLower = 'x' ∨ mark.toLower = 'o' ∨ mark.toLower = 'b') (rest : List Char) :
      Refused (front ++ '0' :: mark :: rest)
  /-- A character beyond ASCII. -/
  | foreign {cs : List Char} {c : Char} (beyond : 128 ≤ c.toNat) (member : c ∈ cs) : Refused cs

/-- The number of a text that is not blank by way of the usual reader: it is asked about what comes
after the sign, and only if that has no other sign at its front and nothing but the characters of
numerals. -/
def guardedNumber (cs : List Char) : Float :=
  let (negative, body) := sign cs
  if body = "Infinity".toList then signed negative infinity
  else if body.head? ≠ some '+' ∧ body.head? ≠ some '-' ∧ body.all isNumeralChar then
    (read? body).elim noNumber (signed negative)
  else noNumber

section reading

variable {s : String} {cs : List Char} {x : Float}

theorem textNumber_of_blank (blank : Text.trim s.toList = []) : textNumber s = 0 := by
  simp only [textNumber, blank]

theorem textNumber_of_trim (solid : Text.trim s.toList ≠ []) :
    textNumber s =
      if (sign (Text.trim s.toList)).2 = "Infinity".toList then
        signed (sign (Text.trim s.toList)).1 infinity
      else (parse? (sign (Text.trim s.toList)).2).elim noNumber fun d =>
        signed (sign (Text.trim s.toList)).1 d.toFloat := by
  unfold textNumber
  cases trimmed : Text.trim s.toList with
  | nil => exact absurd trimmed solid
  | cons c rest =>
    simp only
    split
    · rfl
    · cases parse? (sign (c :: rest)).2 <;> rfl

theorem signless_infinity : Decimal.Signless "Infinity".toList := by
  rintro _ ⟨⟩
  decide

/-- What counts as a number without being blank is, after its sign, a numeral or `Infinity`. -/
theorem Counts.sign_snd (counts : Counts cs x) (solid : cs ≠ []) :
    (sign cs).2 = "Infinity".toList ∨ ∃ n, Spells (sign cs).2 n := by
  cases counts with
  | blank => exact absurd rfl solid
  | infinity marked =>
    rw [Decimal.sign_append marked signless_infinity]
    exact .inl rfl
  | @numeral _ negative n spelled =>
    obtain ⟨marked, spelled⟩ := spelled
    rw [Decimal.sign_append marked spelled.signless]
    exact .inr ⟨n, spelled⟩

/-- A text counts as one number at most, and that is the number it is read as. -/
theorem textNumber_of_counts (counts : Counts (Text.trim s.toList) x) : textNumber s = x := by
  by_cases solid : Text.trim s.toList = []
  · rw [textNumber_of_blank solid]
    rw [solid] at counts
    generalize empty : ([] : List Char) = cs at counts
    cases counts with
    | blank => rfl
    | infinity marked => cases marked <;> cases empty
    | numeral spelled =>
      obtain ⟨marked, spelled⟩ := spelled
      obtain ⟨_, rfl⟩ := List.append_eq_nil_iff.1 empty.symm
      obtain ⟨c, rest, impossible, _⟩ := spelled.exists_cons
      cases impossible
  · rw [textNumber_of_trim solid]
    generalize Text.trim s.toList = cs at counts solid ⊢
    cases counts with
    | blank => exact absurd rfl solid
    | infinity marked => simp only [Decimal.sign_append marked signless_infinity, if_true]
    | @numeral _ negative n spelled =>
      obtain @⟨front, body, _, _, marked, spelled⟩ := spelled
      have apart : body ≠ "Infinity".toList := by
        intro worded
        have letter : 'I' ∈ body := by
          rw [worded]
          decide
        cases spelled.isNumeralChar 'I' letter
      have read := Decimal.parse?_eq_some_iff.2 ⟨n, spelled, rfl⟩
      simp only [Decimal.sign_append marked spelled.signless, apart, if_false, read, Option.elim_some]

theorem isNaN_infinity : infinity.isNaN = false := by decide +kernel

theorem Counts.isNaN (counts : Counts cs x) : x.isNaN = false := by
  cases counts with
  | blank => decide +kernel
  | infinity _ => rw [Double.isNaN_signed, isNaN_infinity]
  | numeral _ => rw [Double.isNaN_signed, Double.isNaN_toFloat]

/-- What does not count as a number is read as none. -/
theorem textNumber_cases (s : String) :
    Counts (Text.trim s.toList) (textNumber s) ∨ textNumber s = noNumber := by
  by_cases solid : Text.trim s.toList = []
  · rw [textNumber_of_blank solid, solid]
    exact .inl .blank
  · obtain ⟨front, marked, parts⟩ := Decimal.exists_signs (Text.trim s.toList)
    rw [textNumber_of_trim solid]
    split
    · next worded =>
      rw [worded] at parts
      left
      have counts := Counts.infinity marked
      rwa [← parts] at counts
    · cases read : parse? (sign (Text.trim s.toList)).2 with
      | none => exact .inr rfl
      | some d =>
        obtain ⟨n, spelled, rfl⟩ := Decimal.parse?_eq_some_iff.1 read
        left
        have counts := Counts.numeral (.of marked spelled)
        rwa [← parts] at counts

end reading

section refused

theorem isBlank_of_isNumeralChar {c : Char} (numeral : isNumeralChar c) :
    Text.isBlank c = false := by
  rcases Decimal.isNumeralChar_cases numeral with digit | rfl | rfl | rfl | rfl | rfl
  · exact CharClasses.isBlank_of_isDigit digit
  all_goals decide

variable {cs : List Char} {x : Float}

/-- A character that is in no numeral and not in `Infinity` is in nothing that counts as a number. -/
theorem Counts.char {c : Char} (counts : Counts cs x) (member : c ∈ cs) :
    isNumeralChar c = true ∨ c ∈ "Infinity".toList := by
  by_cases numeral : isNumeralChar c = true
  · exact .inl numeral
  · right
    have apart : c ≠ '-' ∧ c ≠ '+' := by
      constructor <;>
      · rintro rfl
        exact absurd rfl numeral
    have left := Decimal.mem_sign apart.1 apart.2 member
    rcases counts.sign_snd (List.ne_nil_of_mem member) with worded | ⟨n, spelled⟩
    · rwa [worded] at left
    · exact absurd (spelled.isNumeralChar c left) numeral

/-- Of the words that the usual reader takes only `Infinity` counts. -/
theorem Counts.eq_infinity {front body : List Char} {negative : Bool}
    (counts : Counts (front ++ body) x) (marked : Signs front negative)
    (known : body.map Char.toLower ∈ ["inf".toList, "infinity".toList, "nan".toList]) :
    body = "Infinity".toList := by
  have letter : 'n' ∈ body.map Char.toLower := by
    simp only [List.mem_cons, List.not_mem_nil, or_false] at known
    rcases known with same | same | same <;> (rw [same]; decide)
  have signless : Decimal.Signless body := by
    rintro c first
    cases body with
    | nil => cases first
    | cons d rest =>
      obtain rfl := Option.some.inj first
      constructor <;>
      · rintro rfl
        revert known
        simp
  have solid : front ++ body ≠ [] := by
    intro empty
    obtain ⟨_, rfl⟩ := List.append_eq_nil_iff.1 empty
    cases letter
  have left := counts.sign_snd solid
  rw [Decimal.sign_append marked signless] at left
  rcases left with worded | ⟨n, spelled⟩
  · exact worded
  · exact absurd rfl (Decimal.map_toLower_ne spelled.isNumeralChar _ letter)

/-- What stands behind a sign begins a numeral or `Infinity`. -/
theorem Counts.behind_sign {a b : Char} {rest : List Char} (counts : Counts (a :: b :: rest) x)
    (marked : a = '-' ∨ a = '+') : isNumeralChar b = true ∧ b ≠ '-' ∧ b ≠ '+' ∨ b = 'I' := by
  have left := counts.sign_snd (List.cons_ne_nil a _)
  have body : (sign (a :: b :: rest)).2 = b :: rest := by
    rcases marked with rfl | rfl <;> rfl
  rw [body] at left
  rcases left with worded | ⟨n, spelled⟩
  · exact .inr (List.cons.inj worded).1
  · exact .inl ⟨spelled.isNumeralChar b List.mem_cons_self, spelled.signless b rfl⟩

theorem Refused.not_counts (refused : Refused cs) : ¬ Counts cs x := by
  intro counts
  cases refused with
  | word marked known other => exact other (counts.eq_infinity marked known)
  | detached marked other rest =>
    rcases counts.behind_sign marked with ⟨numeral, minus, plus⟩ | rfl
    · rcases other with same | same | blank
      · exact minus same
      · exact plus same
      · rw [isBlank_of_isNumeralChar numeral] at blank
        cases blank
    · revert other
      decide
  | separated separator member =>
    have known := counts.char member
    rcases separator with rfl | rfl <;> revert known <;> decide
  | @based front negative mark marked base rest =>
    have member : mark ∈ front ++ '0' :: mark :: rest := by
      rw [List.mem_append, List.mem_cons, List.mem_cons]
      exact .inr (.inr (.inl rfl))
    rcases counts.char member with numeral | letter
    · have low := isNumeralChar_toLower numeral
      rcases base with same | same | same <;> (rw [same] at low; cases low)
    · have apart : "Infinity".toList.all fun c =>
          !decide (c.toLower = 'x' ∨ c.toLower = 'o' ∨ c.toLower = 'b') := by decide
      have other := List.all_eq_true.1 apart mark letter
      rw [decide_eq_true base] at other
      cases other
  | foreign beyond member =>
    rcases counts.char member with numeral | letter
    · have range := Decimal.toNat_of_isNumeralChar numeral
      omega
    · have ascii : "Infinity".toList.all fun c => c.toNat < 128 := by decide
      have small := of_decide_eq_true (List.all_eq_true.1 ascii _ letter)
      omega

end refused

/-- The guard lets through to the usual reader what the strict reader takes, and nothing else that the
usual reader takes. -/
theorem textNumber_eq_guardedNumber {s : String} (solid : Text.trim s.toList ≠ []) :
    textNumber s = guardedNumber (Text.trim s.toList) := by
  rw [textNumber_of_trim solid]
  unfold guardedNumber
  generalize sign (Text.trim s.toList) = parts
  obtain ⟨negative, body⟩ := parts
  simp only
  split
  · rfl
  · split
    · next guarded =>
      obtain ⟨plus, minus, numeral⟩ := guarded
      have signless : Decimal.Signless body := by
        intro c first
        constructor <;>
        · rintro rfl
          contradiction
      have read := Decimal.read?_of_isNumeralChar .none (List.all_eq_true.1 numeral) signless
      rw [List.nil_append] at read
      rw [read]
      cases parse? body <;> rfl
    · next refused =>
      cases read : parse? body with
      | none => rfl
      | some d =>
        obtain ⟨n, spelled, _⟩ := Decimal.parse?_eq_some_iff.1 read
        refine absurd ⟨?_, ?_, ?_⟩ refused
        · exact fun plus => (spelled.signless '+' plus).2 rfl
        · exact fun minus => (spelled.signless '-' minus).1 rfl
        · exact List.all_eq_true.2 spelled.isNumeralChar

/-- Which texts count as numbers. What is left of a text without the blanks at its ends is nothing,
which counts as zero, or a numeral or `Infinity` after at most one sign; then the text is the number
that this stands for, and a number it is. All other texts are none: the words of the usual reader,
second signs, blanks after a sign, separators, other bases and characters beyond ASCII among them. So
it is with the usual reader too, behind the guard. -/
theorem textNumber_grammar (s : String) :
    (∀ x, Counts (Text.trim s.toList) x → textNumber s = x ∧ x.isNaN = false) ∧
    ((textNumber s).isNaN = false ↔ ∃ x, Counts (Text.trim s.toList) x) ∧
    (Refused (Text.trim s.toList) → (textNumber s).isNaN = true) ∧
    (Text.trim s.toList ≠ [] → textNumber s = guardedNumber (Text.trim s.toList)) := by
  have number : (textNumber s).isNaN = false ↔ ∃ x, Counts (Text.trim s.toList) x := by
    constructor
    · intro number
      rcases textNumber_cases s with counts | none
      · exact ⟨_, counts⟩
      · rw [none, Double.isNaN_noNumber] at number
        cases number
    · rintro ⟨x, counts⟩
      rw [textNumber_of_counts counts]
      exact counts.isNaN
  refine ⟨fun x counts => ⟨textNumber_of_counts counts, counts.isNaN⟩, number, ?_,
    textNumber_eq_guardedNumber⟩
  intro refused
  cases nan : (textNumber s).isNaN with
  | true => rfl
  | false =>
    obtain ⟨x, counts⟩ := number.1 nan
    exact absurd counts refused.not_counts

end Reckoner.Value
