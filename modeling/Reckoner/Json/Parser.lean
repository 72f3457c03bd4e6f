import Reckoner.Json.Number

set_option autoImplicit false

namespace Reckoner.Json

def isBlank (c : Char) : Bool :=
  c = ' ' || c = '\n' || c = '\t' || c = '\r'

def skipBlanks (cs : List Char) : List Char :=
  cs.dropWhile isBlank

def hexDigit? (c : Char) : Option Nat :=
  if '0' ≤ c ∧ c ≤ '9' then some (c.toNat - 48)
  else if 'a' ≤ c ∧ c ≤ 'f' then some (c.toNat - 87)
  else if 'A' ≤ c ∧ c ≤ 'F' then some (c.toNat - 55)
  else none

def unit? : List Char → Option (Nat × List Char)
  | a :: b :: c :: d :: rest => do
    let w ← hexDigit? a
    let x ← hexDigit? b
    let y ← hexDigit? c
    let z ← hexDigit? d
    some (((w * 16 + x) * 16 + y) * 16 + z, rest)
  | _ => none

/-- The character that one unit, or two that form a pair, stand for after a `\u`. -/
def codePoint? (cs : List Char) : Option (Char × List Char) :=
  match unit? cs with
  | none => none
  | some (high, rest) =>
    if high < 0xD800 ∨ 0xDFFF < high then some (Char.ofNat high, rest)
    else if high < 0xDC00 then
      match rest with
      | '\\' :: 'u' :: more =>
        match unit? more with
        | some (low, rest) =>
          if 0xDC00 ≤ low ∧ low ≤ 0xDFFF then
            some (Char.ofNat (0x10000 + (high - 0xD800) * 0x400 + (low - 0xDC00)), rest)
          else none
        | none => none
      | _ => none
    else none

/-- The character that a letter or mark after a backslash stands for. -/
def mark? (c : Char) : Option Char :=
  if c = '\x22' then some '\x22'
  else if c = '\\' then some '\\'
  else if c = '/' then some '/'
  else if c = 'b' then some '\x08'
  else if c = 'f' then some '\x0c'
  else if c = 'n' then some '\n'
  else if c = 'r' then some '\r'
  else if c = 't' then some '\t'
  else none

/-- The character that what follows a backslash stands for. -/
def escape? : List Char → Option (Char × List Char)
  | [] => none
  | c :: rest =>
    match mark? c with
    | some d => some (d, rest)
    | none => if c = 'u' then codePoint? rest else none

theorem length_of_unit? {cs rest : List Char} {n : Nat} (read : unit? cs = some (n, rest)) :
    rest.length < cs.length := by
  unfold unit? at read
  split at read
  · simp only [Option.bind_eq_bind, Option.bind_eq_some_iff, Option.some.injEq,
      Prod.mk.injEq] at read
    obtain ⟨_, _, _, _, _, _, _, _, _, rfl⟩ := read
    simp only [List.length_cons]
    omega
  · simp at read

theorem length_of_codePoint? {cs rest : List Char} {c : Char}
    (read : codePoint? cs = some (c, rest)) : rest.length < cs.length := by
  unfold codePoint? at read
  split at read
  · simp at read
  · next high after first =>
    have shorter := length_of_unit? first
    split at read
    · simp only [Option.some.injEq, Prod.mk.injEq] at read
      obtain ⟨_, rfl⟩ := read
      exact shorter
    · split at read
      · split at read
        · split at read
          · next second =>
            have shorterStill := length_of_unit? second
            split at read
            · simp only [Option.some.injEq, Prod.mk.injEq] at read
              obtain ⟨_, rfl⟩ := read
              simp only [List.length_cons] at shorter
              omega
            · simp at read
          · simp at read
        · simp at read
      · simp at read

theorem length_of_escape? {cs rest : List Char} {c : Char}
    (read : escape? cs = some (c, rest)) : rest.length < cs.length := by
  cases cs with
  | nil => simp [escape?] at read
  | cons head tail =>
    simp only [escape?] at read
    split at read
    · simp only [Option.some.injEq, Prod.mk.injEq] at read
      obtain ⟨_, rfl⟩ := read
      simp
    · split at read
      · have shorter := length_of_codePoint? read
        simp only [List.length_cons]
        omega
      · simp at read

def stringBody? : List Char → Option (List Char × List Char)
  | [] => none
  | c :: rest =>
    if c = '\x22' then some ([], rest)
    else if c = '\\' then
      match _read : escape? rest with
      | some (d, after) => (stringBody? after).map fun (ds, tail) => (d :: ds, tail)
      | none => none
    else if c.toNat < 0x20 then none
    else (stringBody? rest).map fun (ds, tail) => (c :: ds, tail)
termination_by cs => cs.length
decreasing_by
  · have := length_of_escape? _read
    simp only [List.length_cons]
    omega
  · simp

def quotedString? (cs : List Char) : Option (String × List Char) :=
  match cs with
  | '\x22' :: rest => (stringBody? rest).map fun (ds, tail) => (String.ofList ds, tail)
  | _ => none

def scalar? : List Char → Option (Json × List Char)
  | 'n' :: 'u' :: 'l' :: 'l' :: rest => some (null, rest)
  | 't' :: 'r' :: 'u' :: 'e' :: rest => some (bool true, rest)
  | 'f' :: 'a' :: 'l' :: 's' :: 'e' :: rest => some (bool false, rest)
  | cs =>
    match quotedString? cs with
    | some (s, rest) => some (string s, rest)
    | none => (number? cs).map fun (n, rest) => (number n, rest)

/-- One or more items with commas between them, up to the closing character. Each item takes at
least one character, so the length of the text bounds their number. -/
def items? {α : Type} (item : List Char → Option (α × List Char)) (close : Char) :
    Nat → List Char → Option (List α × List Char)
  | 0, _ => none
  | budget + 1, cs =>
    match item (skipBlanks cs) with
    | none => none
    | some (a, rest) =>
      match skipBlanks rest with
      | [] => none
      | c :: rest =>
        if c = close then some ([a], rest)
        else if c = ',' then
          (items? item close budget rest).map fun (as, tail) => (a :: as, tail)
        else none

def field? (value : List Char → Option (Json × List Char)) (cs : List Char) :
    Option ((String × Json) × List Char) :=
  match quotedString? cs with
  | none => none
  | some (name, rest) =>
    match skipBlanks rest with
    | ':' :: rest => (value (skipBlanks rest)).map fun (j, tail) => ((name, j), tail)
    | _ => none

/-- A document in which arrays and objects stand at most `depth` deep within each other. -/
def value? : Nat → List Char → Option (Json × List Char)
  | 0, cs => scalar? cs
  | depth + 1, '[' :: rest =>
    match skipBlanks rest with
    | ']' :: rest => some (array [], rest)
    | rest => (items? (value? depth) ']' rest.length rest).map fun (js, tail) => (array js, tail)
  | depth + 1, '\x7b' :: rest =>
    match skipBlanks rest with
    | '\x7d' :: rest => some (object [], rest)
    | rest =>
      (items? (field? (value? depth)) '\x7d' rest.length rest).map
        fun (fields, tail) => (object fields, tail)
  | _, cs => scalar? cs

def depthLimit : Nat := 127

def parse? (text : String) : Option Json :=
  match value? depthLimit (skipBlanks text.toList) with
  | some (j, rest) => if (skipBlanks rest).isEmpty then some j else none
  | none => none

end Reckoner.Json
