import Reckoner.Json.Parser
import Reckoner.Text.Quoted

set_option autoImplicit false

namespace Reckoner.Text

open Json (hexDigit?)

section hexadecimal

/-- What holds of the numbers of one digit, and of a number with a digit more wherever it holds of the
number without, holds of every number. -/
theorem hexadecimal_induction {motive : Nat → Prop}
    (digit : ∀ k < 16, Nat.toDigits 16 k = [k.digitChar] → motive k)
    (further : ∀ n, ∀ k < 16, Nat.toDigits 16 (16 * n + k) = Nat.toDigits 16 n ++ [k.digitChar] →
      motive n → motive (16 * n + k))
    (n : Nat) : motive n := by
  induction n using Nat.strongRecOn with
  | ind n ih =>
    by_cases small : n < 16
    · exact digit n small (Nat.toDigits_of_lt_base small)
    · have parts : 16 * (n / 16) + n % 16 = n := Nat.div_add_mod n 16
      have written := Nat.toDigits_of_base_le (b := 16) (n := n) (by decide) (by omega)
      rw [← parts]
      apply further _ _ (by omega)
      · rwa [parts]
      · exact ih (n / 16) (by omega)

theorem hexDigit?_digitChar : ∀ k < 16, hexDigit? k.digitChar = some k := by
  decide

theorem isShown_digitChar : ∀ k < 16, isShown k.digitChar := by
  decide

theorem isShown_of_mem_toDigits {n : Nat} : ∀ c ∈ Nat.toDigits 16 n, isShown c := by
  induction n using hexadecimal_induction with
  | digit k small written =>
    rw [written]
    exact List.forall_mem_singleton.2 (isShown_digitChar k small)
  | further n k small written ih =>
    rw [written]
    intro c member
    rcases List.mem_append.1 member with before | last
    · exact ih c before
    · rw [List.mem_singleton.1 last]
      exact isShown_digitChar k small

end hexadecimal

section reader

inductive Place where
  /-- Before what a character is written as, or the closing quote. -/
  | start
  /-- Behind a backslash. -/
  | marked
  /-- Before the brace that a code point begins with. -/
  | unopened
  /-- Within the braces, and what the digits so far stand for. -/
  | code (n : Nat)

def unmarked? (mark : Char) : Option Char :=
  if mark = '0' then some '\x00'
  else if mark = 't' then some '\t'
  else if mark = 'r' then some '\r'
  else if mark = 'n' then some '\n'
  else if mark = '\\' then some '\\'
  else if mark = '\x22' then some '\x22'
  else none

def preceded (c : Char) (read : List Char × List Char) : List Char × List Char :=
  (c :: read.1, read.2)

def readFrom? : Place → List Char → Option (List Char × List Char)
  | _, [] => none
  | .start, c :: rest =>
    if c = '\x22' then some ([], rest)
    else if c = '\\' then readFrom? .marked rest
    else (readFrom? .start rest).map (preceded c)
  | .marked, c :: rest =>
    if c = 'u' then readFrom? .unopened rest
    else (unmarked? c).bind fun d => (readFrom? .start rest).map (preceded d)
  | .unopened, c :: rest =>
    if c = '\x7b' then readFrom? (.code 0) rest else none
  | .code n, c :: rest =>
    if c = '\x7d' then (readFrom? .start rest).map (preceded (Char.ofNat n))
    else (hexDigit? c).bind fun k => readFrom? (.code (16 * n + k)) rest

/-- The text that was quoted, and what follows the closing quote. -/
def unquoted? : List Char → Option (String × List Char)
  | [] => none
  | c :: rest =>
    if c = '\x22' then (readFrom? .start rest).map fun read => (String.ofList read.1, read.2)
    else none

end reader

section characters

/-- The ways to write a character: behind a backslash by a mark of its own, as it is, or by its code
point. -/
inductive Escape (c : Char) : List Char → Prop
  | mark {mark : Char} (other : mark ≠ 'u') (stands : unmarked? mark = some c)
      (shown : isShown mark) : Escape c ['\\', mark]
  | plain (quote : c ≠ '\x22') (backslash : c ≠ '\\') (shown : isShown c) : Escape c [c]
  | codePoint : Escape c (escapedCodePoint c)

theorem escape_escaped (c : Char) : Escape c (escaped c) := by
  have marked {mark : Char} (other : mark ≠ 'u') (shown : isShown mark) {d : Char}
      (stands : unmarked? mark = some d) (same : c = d) : Escape c ['\\', mark] := by
    rw [← same] at stands
    exact .mark other stands shown
  unfold escaped
  split
  · next same => exact marked (by decide) (by decide) rfl same
  split
  · next same => exact marked (by decide) (by decide) rfl same
  split
  · next same => exact marked (by decide) (by decide) rfl same
  split
  · next same => exact marked (by decide) (by decide) rfl same
  split
  · next same => exact marked (by decide) (by decide) rfl same
  split
  · next same => exact marked (by decide) (by decide) rfl same
  split
  · next backslash quote shown => exact .plain quote backslash shown
  · exact .codePoint

theorem readFrom?_toDigits (n : Nat) (rest : List Char) :
    readFrom? (.code 0) (Nat.toDigits 16 n ++ rest) = readFrom? (.code n) rest := by
  have step {k : Nat} (small : k < 16) (m : Nat) (rest : List Char) :
      readFrom? (.code m) (k.digitChar :: rest) = readFrom? (.code (16 * m + k)) rest := by
    have value := hexDigit?_digitChar k small
    have inside : k.digitChar ≠ '\x7d' := by
      intro brace
      rw [brace] at value
      cases value
    simp only [readFrom?, inside, if_false, value, Option.bind_some]
  induction n using hexadecimal_induction generalizing rest with
  | digit k small written =>
    rw [written, List.singleton_append, step small, Nat.mul_zero, Nat.zero_add]
  | further n k small written ih =>
    rw [written, List.append_assoc, ih, List.singleton_append, step small]

/-- What one character is written as takes a reader back to where it started. -/
theorem readFrom?_escaped (c : Char) (rest : List Char) :
    readFrom? .start (escaped c ++ rest) = (readFrom? .start rest).map (preceded c) := by
  have apart : '\\' ≠ '\x22' := by decide
  have written := escape_escaped c
  generalize escaped c = cs at written ⊢
  cases written with
  | mark other stands _ =>
    simp only [List.cons_append, List.nil_append, readFrom?, apart, other, if_true, if_false,
      stands, Option.bind_some]
  | plain quote backslash _ =>
    simp only [List.cons_append, List.nil_append, readFrom?, quote, backslash, if_false]
  | codePoint =>
    simp only [escapedCodePoint, List.cons_append, List.nil_append, List.append_assoc, readFrom?,
      apart, if_true, if_false, readFrom?_toDigits, Char.ofNat_toNat]

theorem readFrom?_flatMap_escaped (cs rest : List Char) :
    readFrom? .start (cs.flatMap escaped ++ '\x22' :: rest) = some (cs, rest) := by
  induction cs with
  | nil =>
    rw [List.flatMap_nil, List.nil_append, readFrom?]
    simp only [if_true]
  | cons c cs ih =>
    rw [List.flatMap_cons, List.append_assoc, readFrom?_escaped, ih]
    rfl

theorem isShown_of_mem_escaped {c d : Char} (member : d ∈ escaped c) : isShown d := by
  have written := escape_escaped c
  generalize escaped c = cs at written member
  cases written with
  | mark _ _ shown =>
    simp only [List.mem_cons, List.not_mem_nil, or_false] at member
    rcases member with rfl | rfl
    · decide
    · exact shown
  | plain _ _ shown => rwa [List.mem_singleton.1 member]
  | codePoint =>
    simp only [escapedCodePoint, List.mem_cons, List.mem_append, List.not_mem_nil,
      or_false] at member
    rcases member with rfl | rfl | rfl | digit | rfl
    · decide
    · decide
    · decide
    · exact isShown_of_mem_toDigits d digit
    · decide

end characters

section texts

/-- Quoted text is read as the text that was quoted, whatever follows it. -/
theorem unquoted?_quoted (s : String) (rest : List Char) :
    unquoted? ((quoted s).toList ++ rest) = some (s, rest) := by
  rw [quoted, String.toList_ofList, List.cons_append, List.append_assoc, List.singleton_append,
    unquoted?, if_pos rfl, readFrom?_flatMap_escaped]
  exact congrArg (fun t => some (t, rest)) String.ofList_toList

/-- The text that a whole text quotes. -/
def ofQuoted? (s : String) : Option String :=
  match unquoted? s.toList with
  | some (t, []) => some t
  | _ => none

theorem ofQuoted?_quoted (s : String) : ofQuoted? (quoted s) = some s := by
  have read := unquoted?_quoted s []
  rw [List.append_nil] at read
  rw [ofQuoted?, read]

theorem ofQuoted?_eq_none {s : String} (absent : '\x22' ∉ s.toList) : ofQuoted? s = none := by
  have read : unquoted? s.toList = none := by
    cases spelled : s.toList with
    | nil => rfl
    | cons c rest =>
      have other : c ≠ '\x22' := by
        rintro rfl
        rw [spelled] at absent
        exact absent List.mem_cons_self
      rw [unquoted?, if_neg other]
  rw [ofQuoted?, read]

def Shown (s : String) : Prop :=
  ∀ c ∈ s.toList, isShown c

instance (s : String) : Decidable (Shown s) :=
  decidable_of_iff (s.toList.all isShown = true) List.all_eq_true

theorem Shown.not_mem {s : String} (shown : Shown s) {c : Char} (hidden : isShown c = false) :
    c ∉ s.toList := by
  intro member
  have visible := shown c member
  rw [hidden] at visible
  cases visible

theorem shown_quoted (s : String) : Shown (quoted s) := by
  intro c member
  rw [quoted, String.toList_ofList] at member
  simp only [List.mem_cons, List.mem_append, List.mem_flatMap, List.not_mem_nil, or_false] at member
  rcases member with rfl | ⟨d, _, within⟩ | rfl
  · decide
  · exact isShown_of_mem_escaped within
  · decide

end texts

end Reckoner.Text
