import Reckoner.Proofs.Json.Numbers
import Reckoner.Proofs.Json.Strings

set_option autoImplicit false

/-!
What is read where a document was written.

Every part of a document is read up to where it ends and no further, so a document is read part by
part. All but numbers are read as they were written.
-/

namespace Reckoner.Json

open Decimal (Ended ended_nil ended_cons)

/-- A text begins with a part of a document: not with a blank and not with what closes the part
around it. -/
def Begun (cs : List Char) : Prop :=
  ∃ c tail, cs = c :: tail ∧ isBlank c = false ∧ c ≠ ']' ∧ c ≠ '\x7d'

theorem skipBlanks_cons {c : Char} (solid : isBlank c = false) (rest : List Char) :
    skipBlanks (c :: rest) = c :: rest := by
  rw [skipBlanks, List.dropWhile_cons_of_neg]
  rw [solid]
  decide

namespace Begun

variable {cs : List Char}

theorem append (begun : Begun cs) (rest : List Char) : Begun (cs ++ rest) := by
  obtain ⟨c, tail, rfl, plain⟩ := begun
  exact ⟨c, tail ++ rest, rfl, plain⟩

theorem skipBlanks (begun : Begun cs) : skipBlanks cs = cs := by
  obtain ⟨c, tail, rfl, solid, _, _⟩ := begun
  exact skipBlanks_cons solid tail

end Begun

theorem Number.exists_chars (n : Number) :
    ∃ c tail, n.chars = c :: tail ∧ ∀ d, d ≠ 'n' → d ≠ '-' → d.isDigit = false → c ≠ d := by
  have signed {cs : List Char} (signed : Signed cs) :
      ∃ c tail, cs = c :: tail ∧ ∀ d, d ≠ 'n' → d ≠ '-' → d.isDigit = false → c ≠ d := by
    obtain ⟨c, tail, same, other⟩ := signed.exists_cons
    exact ⟨c, tail, same, fun d _ => other d⟩
  cases n with
  | whole i => exact signed (signed_whole i)
  | real x =>
    by_cases finite : x.isFinite
    · exact signed (signed_floatChars finite)
    · refine ⟨'n', ['u', 'l', 'l'], floatChars_of_not_isFinite (Bool.eq_false_iff.2 finite), ?_⟩
      intro d other _ _
      exact other.symm

theorem begun_number (n : Number) : Begun n.chars := by
  obtain ⟨c, tail, same, other⟩ := n.exists_chars
  refine ⟨c, tail, same, ?_, other ']' (by decide) (by decide) (by decide),
    other '\x7d' (by decide) (by decide) (by decide)⟩
  have blank (d : Char) (plain : d ≠ 'n' ∧ d ≠ '-' ∧ d.isDigit = false) : ¬ c = d :=
    other d plain.1 plain.2.1 plain.2.2
  simp only [isBlank, blank ' ' (by decide), blank '\n' (by decide), blank '\t' (by decide),
    blank '\r' (by decide), decide_false, Bool.or_self]

theorem begun_stringChars (s : String) : Begun (stringChars s) :=
  ⟨'\x22', _, rfl, by decide, by decide, by decide⟩

theorem begun_chars (j : Json) : Begun j.chars := by
  cases j with
  | null => exact ⟨'n', _, rfl, by decide, by decide, by decide⟩
  | bool b =>
    cases b with
    | true => exact ⟨'t', _, rfl, by decide, by decide, by decide⟩
    | false => exact ⟨'f', _, rfl, by decide, by decide, by decide⟩
  | number n => exact begun_number n
  | string s => exact begun_stringChars s
  | array items => exact ⟨'[', _, rfl, by decide, by decide, by decide⟩
  | object fields => exact ⟨'\x7b', _, rfl, by decide, by decide, by decide⟩

def separated (parts : List (List Char)) : List Char :=
  [','].intercalate parts

theorem separated_cons_cons (p q : List Char) (parts : List (List Char)) :
    separated (p :: q :: parts) = p ++ ',' :: separated (q :: parts) := by
  rw [separated, List.intercalate_cons_cons, List.append_assoc]
  rfl

theorem elementChars_eq (items : List Json) : elementChars items = separated (items.map chars) := by
  induction items with
  | nil => rfl
  | cons j items ih =>
    cases items with
    | nil => simp only [elementChars, separated, List.map_cons, List.map_nil,
        List.intercalate_singleton]
    | cons k rest =>
      rw [elementChars, ih, List.map_cons, List.map_cons, List.map_cons, separated_cons_cons]

def namedChars (f : String × Json) : List Char :=
  stringChars f.1 ++ ':' :: f.2.chars

theorem fieldChars_eq (fields : List (String × Json)) :
    fieldChars fields = separated (fields.map namedChars) := by
  induction fields with
  | nil => rfl
  | cons f fields ih =>
    obtain ⟨name, j⟩ := f
    cases fields with
    | nil => simp only [fieldChars, separated, List.map_cons, List.map_nil,
        List.intercalate_singleton, namedChars]
    | cons g rest =>
      rw [fieldChars, ih, List.map_cons, List.map_cons, List.map_cons, separated_cons_cons]
      exact (List.append_assoc (stringChars name) (':' :: j.chars) _).symm

theorem ofList_separated (parts : List (List Char)) :
    String.ofList (separated parts) = ",".intercalate (parts.map String.ofList) := by
  rw [← String.toList_inj, String.toList_ofList, String.toList_intercalate, List.map_map]
  simp only [Function.comp_def, String.toList_ofList, List.map_id']
  rfl

theorem render_array (items : List Json) :
    (array items).render = "[" ++ ",".intercalate (items.map render) ++ "]" := by
  have elements : String.ofList (elementChars items) = ",".intercalate (items.map render) := by
    rw [elementChars_eq, ofList_separated, List.map_map]
    rfl
  rw [← elements, render, chars, ← List.singleton_append, ← List.append_assoc, String.ofList_append,
    String.ofList_append]

theorem length_le_separated (p : List Char) (parts : List (List Char)) :
    parts.length ≤ (separated (p :: parts)).length := by
  induction parts generalizing p with
  | nil => exact Nat.zero_le _
  | cons q parts ih =>
    have rest := ih q
    rw [separated_cons_cons]
    simp only [List.length_append, List.length_cons]
    omega

theorem begun_separated {p : List Char} (begun : Begun p) (parts : List (List Char)) :
    Begun (separated (p :: parts)) := by
  cases parts with
  | nil => rwa [separated, List.intercalate_singleton]
  | cons q parts =>
    rw [separated_cons_cons]
    exact begun.append _

section Items

variable {α β : Type} {item : List Char → Option (α × List Char)} {write : β → List Char}
  {again : β → Option α} (close : Char)
  (closing : isBlank close = false ∧ close ≠ ',' ∧ Decimal.isNumeralChar close = false)
  (begun : ∀ x, Begun (write x))
  (read : ∀ x {rest : List Char}, Ended rest →
    item (write x ++ rest) = (again x).map fun a => (a, rest))

include closing begun read

/-- Items are read one by one if each of them is read up to where it ends. -/
theorem items?_separated (b : β) (bs : List β) (rest : List Char) {budget : Nat}
    (enough : bs.length < budget) :
    items? item close budget (separated ((b :: bs).map write) ++ close :: rest) =
      ((b :: bs).mapM again).map fun as => (as, rest) := by
  induction bs generalizing b budget with
  | nil =>
    obtain ⟨budget, rfl⟩ := Nat.exists_eq_succ_of_ne_zero (Nat.ne_zero_of_lt enough)
    have first := read b (ended_cons closing.2.2 rest)
    rw [List.map_singleton, separated, List.intercalate_singleton, items?,
      ((begun b).append _).skipBlanks, first, List.mapM_cons]
    cases again b with
    | none => rfl
    | some a =>
      simp only [Option.map_some, skipBlanks_cons closing.1, if_true]
      rfl
  | cons c bs ih =>
    obtain ⟨budget, rfl⟩ := Nat.exists_eq_succ_of_ne_zero (Nat.ne_zero_of_lt enough)
    have comma : Ended (',' :: (separated ((c :: bs).map write) ++ close :: rest)) :=
      ended_cons (by decide) _
    have first := read b comma
    have later := ih c (Nat.lt_of_succ_lt_succ enough)
    rw [List.map_cons, List.map_cons, separated_cons_cons, List.append_assoc, List.cons_append,
      items?, ← List.map_cons, ((begun b).append _).skipBlanks, first, List.mapM_cons]
    cases again b with
    | none => rfl
    | some a =>
      have solid : isBlank ',' = false := by decide
      simp only [Option.map_some, skipBlanks_cons solid, closing.2.1.symm, if_false, if_true,
        later]
      cases (c :: bs).mapM again <;> rfl

/-- Every item takes a character at least, so the length of the text is budget enough. -/
theorem exists_items (b : β) (bs : List β) (rest : List Char) :
    ∃ c tail, separated ((b :: bs).map write) ++ close :: rest = c :: tail ∧
      skipBlanks (c :: tail) = c :: tail ∧ c ≠ ']' ∧ c ≠ '\x7d' ∧
      items? item close (c :: tail).length (c :: tail) =
        ((b :: bs).mapM again).map fun as => (as, rest) := by
  have shorter := length_le_separated (write b) (bs.map write)
  rw [List.length_map, ← List.map_cons] at shorter
  have enough : bs.length < (separated ((b :: bs).map write) ++ close :: rest).length := by
    simp only [List.length_append, List.length_cons]
    omega
  have all := items?_separated close closing begun read b bs rest enough
  obtain ⟨c, tail, same, solid, bracket, brace⟩ :=
    (begun_separated (begun b) (bs.map write)).append (close :: rest)
  rw [← List.map_cons] at same
  rw [same] at all
  exact ⟨c, tail, same, skipBlanks_cons solid tail, bracket, brace, all⟩

end Items

/-- What is read where a document was written, if arrays and objects may stand `depth` deep within
each other. -/
def reread? : Nat → Json → Option Json
  | depth + 1, array items => (items.mapM (reread? depth)).map array
  | depth + 1, object fields =>
    (fields.mapM fun f => (reread? depth f.2).map fun k => (f.1, k)).map object
  | 0, array _ => none
  | 0, object _ => none
  | _, number n => n.reread?
  | _, j => some j

theorem value?_of_ne {c : Char} (other : c ≠ '[' ∧ c ≠ '\x7b') (depth : Nat) (rest : List Char) :
    value? depth (c :: rest) = scalar? (c :: rest) := by
  unfold value?
  split
  · rfl
  · next same => exact absurd (List.cons.inj same).1 other.1
  · next same => exact absurd (List.cons.inj same).1 other.2
  · rfl

theorem field?_namedChars {value : List Char → Option (Json × List Char)}
    {again : Json → Option Json} (f : String × Json) {rest : List Char}
    (read : value (f.2.chars ++ rest) = (again f.2).map fun j => (j, rest)) :
    field? value (namedChars f ++ rest) =
      ((again f.2).map fun k => (f.1, k)).map fun g => (g, rest) := by
  have colon : isBlank ':' = false := by decide
  rw [namedChars, List.append_assoc, List.cons_append, field?, quotedString?_stringChars]
  simp only [skipBlanks_cons colon, ((begun_chars f.2).append rest).skipBlanks, read]
  cases again f.2 <;> rfl

theorem scalar?_stringChars (s : String) (rest : List Char) :
    scalar? (stringChars s ++ rest) = some (string s, rest) := by
  have quoted := quotedString?_stringChars s rest
  rw [stringChars, List.cons_append] at quoted ⊢
  unfold scalar?
  split
  · next same => exact absurd (List.cons.inj same).1 (by decide)
  · next same => exact absurd (List.cons.inj same).1 (by decide)
  · next same => exact absurd (List.cons.inj same).1 (by decide)
  · rw [quoted]

theorem begun_namedChars (f : String × Json) : Begun (namedChars f) :=
  (begun_stringChars f.1).append _

section Depth

variable {depth : Nat} (read : ∀ (j : Json) {rest : List Char}, Ended rest →
  value? depth (j.chars ++ rest) = (reread? depth j).map fun k => (k, rest))

include read

theorem value?_array (items : List Json) (rest : List Char) :
    value? (depth + 1) ((array items).chars ++ rest) =
      (reread? (depth + 1) (array items)).map fun k => (k, rest) := by
  rw [chars, elementChars_eq, List.cons_append, List.append_assoc, List.singleton_append, value?]
  cases items with
  | nil => rfl
  | cons j items =>
    obtain ⟨c, tail, same, solid, bracket, _, all⟩ :=
      exists_items ']' (by decide) begun_chars read j items rest
    rw [same, solid]
    split
    · next closed => exact absurd (List.cons.inj closed).1 bracket
    · rw [all, reread?]
      cases (j :: items).mapM (reread? depth) <;> rfl

theorem value?_object (fields : List (String × Json)) (rest : List Char) :
    value? (depth + 1) ((object fields).chars ++ rest) =
      (reread? (depth + 1) (object fields)).map fun k => (k, rest) := by
  rw [chars, fieldChars_eq, List.cons_append, List.append_assoc, List.singleton_append, value?]
  cases fields with
  | nil => rfl
  | cons f fields =>
    have named (g : String × Json) {rest : List Char} (ended : Ended rest) :=
      field?_namedChars g (read g.2 ended)
    obtain ⟨c, tail, same, solid, _, brace, all⟩ :=
      exists_items '\x7d' (by decide) begun_namedChars named f fields rest
    rw [same, solid]
    split
    · next closed => exact absurd (List.cons.inj closed).1 brace
    · rw [all, reread?]
      cases (f :: fields).mapM (fun g => (reread? depth g.2).map fun k => (g.1, k)) <;> rfl

end Depth

theorem value?_chars (depth : Nat) (j : Json) {rest : List Char} (ended : Ended rest) :
    value? depth (j.chars ++ rest) = (reread? depth j).map fun k => (k, rest) := by
  -- By induction on the depth, since that is what the reader counts down at each bracket.
  induction depth generalizing j rest with
  | zero =>
    cases j with
    | null => rfl
    | bool b => cases b <;> rfl
    | number n => exact scalar?_chars n ended
    | string s => exact scalar?_stringChars s rest
    | array items => rfl
    | object fields => rfl
  | succ depth ih =>
    have scalar {c : Char} {tail : List Char} (same : j.chars = c :: tail)
        (other : c ≠ '[' ∧ c ≠ '\x7b') :
        value? (depth + 1) (j.chars ++ rest) = scalar? (j.chars ++ rest) := by
      rw [same, List.cons_append, value?_of_ne other]
    cases j with
    | null => exact scalar rfl (by decide)
    | bool b =>
      cases b with
      | true => exact scalar rfl (by decide)
      | false => exact scalar rfl (by decide)
    | number n =>
      obtain ⟨c, tail, same, other⟩ := n.exists_chars
      have bracket := other '[' (by decide) (by decide) (by decide)
      have brace := other '\x7b' (by decide) (by decide) (by decide)
      exact (scalar same ⟨bracket, brace⟩).trans (scalar?_chars n ended)
    | string s => exact (scalar rfl (by decide)).trans (scalar?_stringChars s rest)
    | array items => exact value?_array ih items rest
    | object fields => exact value?_object ih fields rest

theorem parse?_render (j : Json) : parse? j.render = reread? depthLimit j := by
  have read := value?_chars depthLimit j ended_nil
  rw [List.append_nil] at read
  rw [parse?, render, String.toList_ofList, (begun_chars j).skipBlanks, read]
  cases reread? depthLimit j <;> rfl

end Reckoner.Json
