import Reckoner.Json.Parser
import Reckoner.Json.Printer

set_option autoImplicit false

namespace Reckoner.Json

def controlDigits (n : Nat) : List Char :=
  if n < 0x10 then '0' :: '0' :: '0' :: Nat.toDigits 16 n else '0' :: '0' :: Nat.toDigits 16 n

theorem unit?_controlDigits : ∀ n < 0x20, unit? (controlDigits n) = some (n, []) := by
  decide

theorem unit?_append {cs : List Char} {n : Nat} (read : unit? cs = some (n, []))
    (rest : List Char) : unit? (cs ++ rest) = some (n, rest) := by
  unfold unit? at read
  split at read
  · next a b c d others =>
    simp only [Option.bind_eq_bind, Option.bind_eq_some_iff, Option.some.injEq,
      Prod.mk.injEq] at read
    obtain ⟨w, first, x, second, y, third, z, fourth, rfl, rfl⟩ := read
    simp only [List.cons_append, List.nil_append, unit?, first, second, third, fourth,
      Option.bind_eq_bind, Option.bind_some]
  · cases read

theorem codePoint?_controlDigits {n : Nat} (control : n < 0x20) (rest : List Char) :
    codePoint? (controlDigits n ++ rest) = some (Char.ofNat n, rest) := by
  have plain : n < 0xD800 ∨ 0xDFFF < n := by omega
  rw [codePoint?, unit?_append (unit?_controlDigits n control)]
  simp only [plain, if_true]

theorem escape?_mark {c d : Char} (marked : mark? c = some d) (rest : List Char) :
    escape? (c :: rest) = some (d, rest) := by
  simp only [escape?, marked]

theorem stringBody?_escape {d : Char} {cs after : List Char}
    (read : escape? cs = some (d, after)) :
    stringBody? ('\\' :: cs) = (stringBody? after).map fun (ds, tail) => (d :: ds, tail) := by
  have backslash : '\\' ≠ '\x22' := by decide
  rw [stringBody?]
  simp only [backslash, if_false, if_true]
  split
  · next e rest found =>
    obtain ⟨rfl, rfl⟩ := Prod.mk.inj (Option.some.inj (read.symm.trans found))
    rfl
  · next failed =>
    rw [read] at failed
    cases failed

/-- The ways to write a character: behind a backslash by a letter or mark, by four digits if it is a
control, or as it is. -/
inductive Escape (c : Char) : List Char → Prop
  | mark {letter : Char} (stands : mark? letter = some c) : Escape c ['\\', letter]
  | control (small : c.toNat < 0x20) : Escape c ('\\' :: 'u' :: controlDigits c.toNat)
  | plain (quote : c ≠ '\x22') (backslash : c ≠ '\\') (raw : ¬ c.toNat < 0x20) : Escape c [c]

theorem escape_escaped (c : Char) : Escape c (escaped c) := by
  have marked {letter d : Char} (stands : mark? letter = some d) (same : c = d) :
      Escape c ['\\', letter] := by
    rw [← same] at stands
    exact .mark stands
  unfold escaped
  split
  · next same => exact marked rfl same
  split
  · next same => exact marked rfl same
  split
  · next same => exact marked rfl same
  split
  · next same => exact marked rfl same
  split
  · next same => exact marked rfl same
  split
  · next same => exact marked rfl same
  split
  · next same => exact marked rfl same
  split
  · next low =>
    have written := Escape.control (Nat.lt_trans low (by decide))
    rwa [controlDigits, if_pos low] at written
  split
  · next high low =>
    have written := Escape.control low
    rwa [controlDigits, if_neg high] at written
  · next quote backslash _ _ _ _ _ _ raw => exact .plain quote backslash raw

/-- One character is read as it was written, and then the rest. -/
theorem stringBody?_escaped (c : Char) (rest : List Char) :
    stringBody? (escaped c ++ rest) =
      (stringBody? rest).map fun (ds, tail) => (c :: ds, tail) := by
  have written := escape_escaped c
  generalize escaped c = cs at written ⊢
  cases written with
  | mark stands => exact stringBody?_escape (escape?_mark stands rest)
  | control small =>
    have letter : mark? 'u' = none := by decide
    rw [List.cons_append, List.cons_append]
    apply stringBody?_escape
    simp only [escape?, letter, if_true]
    rw [codePoint?_controlDigits small, Char.ofNat_toNat]
  | plain quote backslash raw =>
    rw [List.singleton_append, stringBody?]
    simp only [quote, backslash, raw, if_false]

theorem stringBody?_flatMap_escaped (cs rest : List Char) :
    stringBody? (cs.flatMap escaped ++ '\x22' :: rest) = some (cs, rest) := by
  induction cs with
  | nil =>
    rw [List.flatMap_nil, List.nil_append, stringBody?]
    simp only [if_true]
  | cons c cs ih =>
    rw [List.flatMap_cons, List.append_assoc, stringBody?_escaped, ih]
    rfl

theorem quotedString?_stringChars (s : String) (rest : List Char) :
    quotedString? (stringChars s ++ rest) = some (s, rest) := by
  rw [stringChars, List.cons_append, List.append_assoc, List.singleton_append, quotedString?]
  rw [stringBody?_flatMap_escaped]
  exact congrArg (fun t => some (t, rest)) String.ofList_toList

end Reckoner.Json
