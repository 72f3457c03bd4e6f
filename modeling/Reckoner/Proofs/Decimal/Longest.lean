import Reckoner.Proofs.Decimal.Scanning

set_option autoImplicit false

namespace Reckoner.Decimal

/-- No sign, or one; true for a minus. -/
inductive Signs : List Char → Bool → Prop
  | none : Signs [] false
  | plus : Signs ['+'] false
  | minus : Signs ['-'] true

def Signless (cs : List Char) : Prop :=
  ∀ c, cs.head? = some c → c ≠ '-' ∧ c ≠ '+'

/-- Nothing, or a point and digits. -/
inductive SpellsPart : List Char → List Char → Prop
  | none : SpellsPart [] []
  | point {ds : List Char} (digits : ∀ c ∈ ds, c.isDigit) : SpellsPart ('.' :: ds) ds

/-- Nothing, or an `e` in either case, perhaps a sign, and digits. -/
inductive SpellsPower : List Char → Int → Prop
  | none : SpellsPower [] 0
  | marked {mark : Char} {front ds : List Char} {negative : Bool}
      (letter : mark = 'e' ∨ mark = 'E') (signed : Signs front negative) (nonempty : ds ≠ [])
      (digits : ∀ c ∈ ds, c.isDigit) :
      SpellsPower (mark :: (front ++ ds))
        (if negative then -(natOfDigits ds : Int) else natOfDigits ds)

/-- A numeral without a sign: digits, perhaps a point and digits, perhaps a power of ten. At least one
digit stands beside the point. -/
inductive Spells : List Char → Numeral → Prop
  | of {whole written part power : List Char} {scale : Int} (digits : ∀ c ∈ whole, c.isDigit)
      (pointed : SpellsPart written part) (solid : whole ≠ [] ∨ part ≠ [])
      (raised : SpellsPower power scale) :
      Spells (whole ++ (written ++ power)) ⟨whole, part, scale⟩

inductive SpellsSigned : List Char → Bool → Numeral → Prop
  | of {front body : List Char} {negative : Bool} {n : Numeral} (signed : Signs front negative)
      (spelled : Spells body n) : SpellsSigned (front ++ body) negative n

/-- What a reader hands back that was to take all before `tail`: that and no more, or more. -/
def AtLeast {α : Type} (a : α) (tail : List Char) (out : α × List Char) : Prop :=
  out = (a, tail) ∨ out.2.length < tail.length

theorem AtLeast.map {α β : Type} {a : α} {tail : List Char} {out : α × List Char}
    (least : AtLeast a tail out) (f : α → β) : AtLeast (f a) tail (f out.1, out.2) := by
  rcases least with rfl | beyond
  · exact .inl rfl
  · exact .inr beyond

theorem isEmpty_and_eq_false_iff {whole part : List Char} :
    (whole.isEmpty && part.isEmpty) = false ↔ whole ≠ [] ∨ part ≠ [] := by
  rw [Bool.and_eq_false_iff, List.isEmpty_eq_false_iff, List.isEmpty_eq_false_iff]

section sound

theorem exists_signs (cs : List Char) :
    ∃ front, Signs front (sign cs).1 ∧ cs = front ++ (sign cs).2 := by
  cases cs with
  | nil => exact ⟨[], .none, rfl⟩
  | cons c rest =>
    by_cases minus : c = '-'
    · subst minus
      exact ⟨['-'], .minus, rfl⟩
    · by_cases plus : c = '+'
      · subst plus
        exact ⟨['+'], .plus, rfl⟩
      · rw [sign_of_ne minus plus]
        exact ⟨[], .none, rfl⟩

theorem exists_spellsPart (whole cs : List Char) :
    ∃ written, SpellsPart written (fraction whole cs).1 ∧
      cs = written ++ (fraction whole cs).2 := by
  cases cs with
  | nil => exact ⟨[], .none, rfl⟩
  | cons c rest =>
    by_cases point : c = '.'
    · subst point
      simp only [fraction]
      split
      · exact ⟨[], .none, rfl⟩
      · refine ⟨'.' :: (digitRun rest).1, .point fun c => isDigit_of_mem_digitRun, ?_⟩
        rw [List.cons_append, digitRun_append]
    · rw [fraction_of_ne point]
      exact ⟨[], .none, rfl⟩

theorem exists_spellsPower (cs : List Char) :
    ∃ written, SpellsPower written (power cs).1 ∧ cs = written ++ (power cs).2 := by
  cases cs with
  | nil => exact ⟨[], .none, rfl⟩
  | cons c rest =>
    by_cases letter : c = 'e' ∨ c = 'E'
    · obtain ⟨front, signed, whole⟩ := exists_signs rest
      have parts := digitRun_append (sign rest).2
      have digits : ∀ d ∈ (digitRun (sign rest).2).1, d.isDigit :=
        fun d => isDigit_of_mem_digitRun
      simp only [power, letter, if_true]
      cases run : digitRun (sign rest).2 with
      | mk ds after =>
        rw [run] at parts digits
        cases ds with
        | nil => exact ⟨[], .none, rfl⟩
        | cons d others =>
          refine ⟨c :: (front ++ d :: others),
            .marked letter signed (List.cons_ne_nil d others) digits, ?_⟩
          rw [List.cons_append, List.append_assoc, parts, ← whole]
    · simp only [power, letter, if_false]
      exact ⟨[], .none, rfl⟩

theorem exists_spells {cs rest : List Char} {n : Numeral} (found : scan cs = some (n, rest)) :
    ∃ p, Spells p n ∧ cs = p ++ rest := by
  obtain ⟨written, pointed, afterWhole⟩ := exists_spellsPart (digitRun cs).1 (digitRun cs).2
  obtain ⟨raise, raised, afterPart⟩ :=
    exists_spellsPower (fraction (digitRun cs).1 (digitRun cs).2).2
  simp only [scan] at found
  split at found
  · cases found
  · next solid =>
    obtain ⟨rfl, rfl⟩ := Prod.mk.inj (Option.some.inj found)
    rw [Bool.not_eq_true, isEmpty_and_eq_false_iff] at solid
    refine ⟨_, .of (fun c => isDigit_of_mem_digitRun) pointed solid raised, ?_⟩
    rw [List.append_assoc, List.append_assoc, ← afterPart, ← afterWhole, digitRun_append]

end sound

section longest

variable {whole part power written ds p tail : List Char} {scale : Int} {n : Numeral}

theorem length_digitRun_le (cs : List Char) : (digitRun cs).2.length ≤ cs.length := by
  have whole := congrArg List.length (digitRun_append cs)
  rw [List.length_append] at whole
  omega

theorem length_fraction_le (whole cs : List Char) :
    (fraction whole cs).2.length ≤ cs.length := by
  obtain ⟨written, _, parts⟩ := exists_spellsPart whole cs
  have size := congrArg List.length parts
  rw [List.length_append] at size
  omega

theorem length_power_le (cs : List Char) : (Decimal.power cs).2.length ≤ cs.length := by
  obtain ⟨written, _, parts⟩ := exists_spellsPower cs
  have size := congrArg List.length parts
  rw [List.length_append] at size
  omega

theorem sign_append {front body : List Char} {negative : Bool} (signed : Signs front negative)
    (other : Signless body) : sign (front ++ body) = (negative, body) := by
  cases signed with
  | none =>
    cases body with
    | nil => rfl
    | cons c rest =>
      obtain ⟨minus, plus⟩ := other c rfl
      exact sign_of_ne minus plus rest
  | plus => rfl
  | minus => rfl

theorem ne_of_isDigit {c : Char} (digit : c.isDigit) : c ≠ '-' ∧ c ≠ '+' := by
  constructor <;>
  · rintro rfl
    cases digit

theorem atLeast_digitRun (digits : ∀ c ∈ ds, c.isDigit) (tail : List Char) :
    AtLeast ds tail (digitRun (ds ++ tail)) := by
  cases tail with
  | nil => exact .inl (digitRun_of_append digits ended_nil.isDigit)
  | cons c rest =>
    by_cases digit : c.isDigit
    · right
      have further := length_digitRun_le rest
      simp only [digitRun, List.dropWhile_append_of_pos digits, List.dropWhile_cons, digit, if_true,
        List.length_cons] at further ⊢
      omega
    · left
      refine digitRun_of_append digits ?_
      rintro _ ⟨⟩
      simpa using digit

theorem fraction_append (pointed : SpellsPart written part) (solid : whole ≠ [] ∨ part ≠ [])
    {c : Char} (digit : c.isDigit = false) (point : c ≠ '.') (rest : List Char) :
    fraction whole (written ++ c :: rest) = (part, c :: rest) := by
  cases pointed with
  | none => exact fraction_of_ne point whole rest
  | point digits =>
    have run : digitRun (part ++ c :: rest) = (part, c :: rest) := by
      refine digitRun_of_append digits ?_
      rintro _ ⟨⟩
      exact digit
    have beside := isEmpty_and_eq_false_iff.2 solid
    simp only [List.cons_append, fraction, run, beside, Bool.false_eq_true, if_false]

theorem atLeast_fraction (pointed : SpellsPart written part) (solid : whole ≠ [] ∨ part ≠ [])
    (tail : List Char) : AtLeast part tail (fraction whole (written ++ tail)) := by
  cases pointed with
  | none =>
    obtain ⟨taken, spelled, parts⟩ := exists_spellsPart whole tail
    rw [List.nil_append]
    generalize fraction whole tail = out at spelled parts ⊢
    obtain ⟨ds, rest⟩ := out
    cases spelled with
    | none => exact .inl (Prod.ext rfl parts.symm)
    | point digits =>
      right
      rw [parts, List.length_append, List.length_cons]
      omega
  | point digits =>
    rcases atLeast_digitRun digits tail with exact | beyond
    · have beside := isEmpty_and_eq_false_iff.2 solid
      left
      simp only [List.cons_append, fraction, exact, beside, Bool.false_eq_true, if_false]
    · right
      have parts := congrArg List.length (digitRun_append (part ++ tail))
      rw [List.length_append, List.length_append] at parts
      have some : (digitRun (part ++ tail)).1.isEmpty = false := by
        rw [List.isEmpty_eq_false_iff, ← List.length_pos_iff]
        omega
      simp only [List.cons_append, fraction, some, Bool.and_false, Bool.false_eq_true, if_false]
      exact beyond

theorem atLeast_power (raised : SpellsPower power scale) (tail : List Char) :
    AtLeast scale tail (Decimal.power (power ++ tail)) := by
  cases raised with
  | none =>
    obtain ⟨taken, spelled, parts⟩ := exists_spellsPower tail
    rw [List.nil_append]
    generalize Decimal.power tail = out at spelled parts ⊢
    obtain ⟨n, rest⟩ := out
    cases spelled with
    | none => exact .inl (Prod.ext rfl parts.symm)
    | marked letter signed nonempty digits =>
      right
      rw [parts, List.length_append, List.length_cons]
      omega
  | @marked mark front ds negative letter signed nonempty digits =>
    have signless : Signless (ds ++ tail) := by
      intro c first
      cases ds with
      | nil => exact absurd rfl nonempty
      | cons d others =>
        obtain rfl := Option.some.inj first
        exact ne_of_isDigit (digits d List.mem_cons_self)
    simp only [List.cons_append, List.append_assoc, Decimal.power, letter, if_true,
      sign_append signed signless]
    have parts := congrArg List.length (digitRun_append (ds ++ tail))
    rw [List.length_append, List.length_append] at parts
    rcases atLeast_digitRun digits tail with exact | beyond
    · left
      rw [exact]
      cases ds with
      | nil => exact absurd rfl nonempty
      | cons d others => rfl
    · right
      generalize digitRun (ds ++ tail) = out at parts beyond ⊢
      obtain ⟨run, rest⟩ := out
      cases run with
      | nil =>
        simp only [List.length_nil] at parts beyond
        omega
      | cons d others => exact beyond

/-- What is taken as digits without a point takes no more than the point. -/
theorem length_le_of_fraction_nil (whole cs : List Char) (nothing : (fraction whole cs).1 = []) :
    cs.length ≤ (fraction whole cs).2.length + 1 := by
  obtain ⟨taken, spelled, parts⟩ := exists_spellsPart whole cs
  rw [nothing] at spelled
  have size := congrArg List.length parts
  rw [List.length_append] at size
  cases spelled <;> simp only [List.length_nil, List.length_cons] at size <;> omega

/-- A scan goes on to the power of ten from wherever digits and point end. -/
theorem scan_of_parts {cs rest after : List Char} (run : digitRun cs = (whole, after))
    (pointed : fraction whole after = (part, rest)) (solid : whole ≠ [] ∨ part ≠ []) :
    scan cs = some (⟨whole, part, (Decimal.power rest).1⟩, (Decimal.power rest).2) := by
  have beside := isEmpty_and_eq_false_iff.2 solid
  simp only [scan, run, pointed, beside, Bool.false_eq_true, if_false]

/-- A scan takes a numeral at the front of a text, or more. -/
theorem exists_scan_append (spelled : Spells p n) (tail : List Char) :
    ∃ out, scan (p ++ tail) = some out ∧ AtLeast n tail out := by
  obtain @⟨whole, written, part, power, scale, digits, pointed, solid, raised⟩ := spelled
  rw [List.append_assoc, List.append_assoc]
  cases raised with
  | @marked mark front ds negative letter signed nonempty powerDigits =>
    -- An `e` ends the digits, so all before it is taken as it is spelled.
    have marked : mark.isDigit = false ∧ mark ≠ '.' := by
      rcases letter with rfl | rfl <;> decide
    have run : digitRun (whole ++ (written ++ (mark :: (front ++ ds) ++ tail))) =
        (whole, written ++ (mark :: (front ++ ds) ++ tail)) := by
      refine digitRun_of_append digits ?_
      cases pointed with
      | none =>
        rintro _ ⟨⟩
        exact marked.1
      | point _ =>
        rintro _ ⟨⟩
        decide
    have pointless := fraction_append pointed solid marked.1 marked.2 (front ++ ds ++ tail)
    refine ⟨_, scan_of_parts run pointless solid, ?_⟩
    exact (atLeast_power (.marked letter signed nonempty powerDigits) tail).map (Numeral.mk whole part)
  | none =>
    have onward := (atLeast_power .none tail).map (Numeral.mk whole part)
    rw [List.nil_append] at onward ⊢
    cases pointed with
    | point partDigits =>
      have run : digitRun (whole ++ ('.' :: part ++ tail)) = (whole, '.' :: part ++ tail) := by
        refine digitRun_of_append digits ?_
        rintro _ ⟨⟩
        decide
      rcases atLeast_fraction (.point partDigits) solid tail with exact | beyond
      · exact ⟨_, scan_of_parts run exact solid, onward⟩
      · refine ⟨_, scan_of_parts run rfl (.inr ?_), .inr ?_⟩
        · intro nothing
          have size := length_le_of_fraction_nil whole ('.' :: part ++ tail) nothing
          rw [List.length_append, List.length_cons] at size
          omega
        · exact Nat.lt_of_le_of_lt (length_power_le _) beyond
    | none =>
      have nonempty : whole ≠ [] := solid.resolve_right fun absent => absent rfl
      rw [List.nil_append]
      rcases atLeast_digitRun digits tail with exact | beyond
      · rcases atLeast_fraction .none solid tail with here | beyond
        · exact ⟨_, scan_of_parts exact here solid, onward⟩
        · refine ⟨_, scan_of_parts exact rfl (.inl nonempty), .inr ?_⟩
          exact Nat.lt_of_le_of_lt (length_power_le _) beyond
      · have taken : (digitRun (whole ++ tail)).1 ≠ [] := by
          intro nothing
          have parts := congrArg List.length (digitRun_append (whole ++ tail))
          rw [nothing, List.nil_append, List.length_append] at parts
          omega
        refine ⟨_, scan_of_parts rfl rfl (.inl taken), .inr ?_⟩
        refine Nat.lt_of_le_of_lt (length_power_le _) ?_
        exact Nat.lt_of_le_of_lt (length_fraction_le _ _) beyond

end longest

section whole

variable {p : List Char} {n : Numeral}

theorem scan_of_spells (spelled : Spells p n) : scan p = some (n, []) := by
  obtain ⟨out, found, least⟩ := exists_scan_append spelled []
  rw [List.append_nil] at found
  rcases least with rfl | beyond
  · exact found
  · exact absurd beyond (Nat.not_lt_zero _)

/-- What is a numeral as a whole is read as the number that it spells, and nothing else is read. -/
theorem parse?_eq_some_iff {cs : List Char} {d : Decimal} :
    parse? cs = some d ↔ ∃ n, Spells cs n ∧ n.value = d := by
  constructor
  · intro read
    unfold parse? at read
    split at read
    · next n found =>
      obtain ⟨p, spelled, rfl⟩ := exists_spells found
      rw [List.append_nil]
      exact ⟨n, spelled, Option.some.inj read⟩
    · cases read
  · rintro ⟨n, spelled, rfl⟩
    rw [parse?, scan_of_spells spelled]

theorem Spells.exists_cons (spelled : Spells p n) :
    ∃ c rest, p = c :: rest ∧ (c.isDigit ∨ c = '.') := by
  obtain @⟨whole, written, part, power, scale, digits, pointed, solid, raised⟩ := spelled
  cases whole with
  | cons c rest => exact ⟨c, _, rfl, .inl (digits c List.mem_cons_self)⟩
  | nil =>
    cases pointed with
    | none =>
      rcases solid with absent | absent
      · exact absurd rfl absent
      · exact absurd rfl absent
    | point _ => exact ⟨'.', _, rfl, .inr rfl⟩

theorem Spells.signless_append (spelled : Spells p n) (tail : List Char) : Signless (p ++ tail) := by
  obtain ⟨first, rest, rfl, digit | rfl⟩ := spelled.exists_cons
  · rintro _ ⟨⟩
    exact ne_of_isDigit digit
  · rintro _ ⟨⟩
    decide

theorem Spells.signless (spelled : Spells p n) : Signless p := by
  have signless := spelled.signless_append []
  rwa [List.append_nil] at signless

def IsNumeral (cs : List Char) : Prop :=
  ∃ negative n, SpellsSigned cs negative n

/-- A numeral at the front of a text that no other there is longer than. -/
structure Longest (cs p : List Char) (negative : Bool) (n : Numeral) : Prop where
  front : p <+: cs
  spelled : SpellsSigned p negative n
  longest : ∀ q, q <+: cs → IsNumeral q → q.length ≤ p.length

/-- A numeral at the front of a text is taken, or a longer one. -/
theorem exists_scan_of_isPrefix {cs q : List Char} (front : q <+: cs) (numeral : IsNumeral q) :
    ∃ m rest, scan (sign cs).2 = some (m, rest) ∧ q.length + rest.length ≤ cs.length := by
  obtain ⟨tail, rfl⟩ := front
  obtain ⟨negative, n, @⟨front, body, _, _, signed, spelled⟩⟩ := numeral
  obtain ⟨⟨m, rest⟩, found, least⟩ := exists_scan_append spelled tail
  rw [List.append_assoc, sign_append signed (spelled.signless_append tail)]
  refine ⟨m, rest, found, ?_⟩
  have within : rest.length ≤ tail.length := by
    rcases least with exact | beyond
    · exact Nat.le_of_eq (congrArg (fun out => out.2.length) exact)
    · exact Nat.le_of_lt beyond
  simp only [List.length_append]
  omega

/-- What is scanned of a text after its sign is, with the sign, the longest numeral at its front, and
nothing is only if there is none. -/
theorem scan_sign_cases (cs : List Char) :
    (scan (sign cs).2 = none ∧ ∀ q, q <+: cs → ¬ IsNumeral q) ∨
      ∃ p n rest, scan (sign cs).2 = some (n, rest) ∧ cs = p ++ rest ∧
        Longest cs p (sign cs).1 n := by
  obtain ⟨front, signed, parts⟩ := exists_signs cs
  cases found : scan (sign cs).2 with
  | none =>
    left
    refine ⟨rfl, ?_⟩
    intro q within numeral
    obtain ⟨m, rest, taken, _⟩ := exists_scan_of_isPrefix within numeral
    rw [found] at taken
    cases taken
  | some out =>
    right
    obtain ⟨n, rest⟩ := out
    obtain ⟨p, spelled, body⟩ := exists_spells found
    have whole : cs = (front ++ p) ++ rest := by
      rw [List.append_assoc, ← body]
      exact parts
    refine ⟨front ++ p, n, rest, rfl, whole, ⟨rest, whole.symm⟩, .of signed spelled, ?_⟩
    intro q within numeral
    obtain ⟨m, after, taken, size⟩ := exists_scan_of_isPrefix within numeral
    obtain ⟨_, rfl⟩ := Prod.mk.inj (Option.some.inj (found.symm.trans taken))
    have total := congrArg List.length whole
    rw [List.length_append] at total
    omega

end whole

end Reckoner.Decimal
