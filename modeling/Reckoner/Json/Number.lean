import Reckoner.Json.Basic
import Reckoner.Decimal.Numeral

set_option autoImplicit false

/-!
Numbers in documents.

An integer that fits a 64-bit word is exact. Any other number is worked out in double arithmetic: the
digits that fit a word make a double, and a tabulated power of ten scales it. Each of the two steps
rounds, so the result may lie next to the nearest double.
-/

namespace Reckoner.Json

/-- Whether digits follow in the form of a document: no zero before another digit, and digits after
a point. -/
def isStrict (body : List Char) : Bool :=
  let (whole, rest) := Decimal.digitRun body
  let zeros := match whole with
    | ['0'] => true
    | '0' :: _ => false
    | [] => false
    | _ => true
  let point := match rest with
    | '.' :: c :: _ => c.isDigit
    | ['.'] => false
    | _ => true
  zeros && point

/-- One more than the largest natural that a 64-bit word holds. -/
def wordLimit : Nat := 0x10000000000000000

def signedLimit : Nat := 0x8000000000000000

def whole? (negative : Bool) (size : Nat) : Option Int :=
  if negative then
    if 0 < size ∧ size ≤ signedLimit then some (-Int.ofNat size) else none
  else
    if size < wordLimit then some (.ofNat size) else none

def appendDigit (word : Nat) (c : Char) : Nat :=
  10 * word + (c.toNat - '0'.toNat)

/-- Appends digits to a word for as long as they fit, and hands back those left over. -/
def appendDigits (word : Nat) : List Char → Nat × List Char
  | [] => (word, [])
  | c :: cs =>
    if appendDigit word c < wordLimit then appendDigits (appendDigit word c) cs
    else (word, c :: cs)

def largestPower : Nat := 308

def powerOfTen (n : Nat) : Float :=
  (Decimal.mk 1 n).toFloat

/-- A word as a double, multiplied or divided by a power of ten; infinite beyond the range. Two
divisions by the largest power leave nothing of any word. -/
def scaled (x : Float) : Int → Float
  | .ofNat n =>
    if n ≤ largestPower then x * powerOfTen n
    else if x == 0 then x
    else Decimal.infinity
  | .negSucc n =>
    if n + 1 ≤ largestPower then x / powerOfTen (n + 1)
    else if n + 1 ≤ 2 * largestPower then
      x / powerOfTen largestPower / powerOfTen (n + 1 - largestPower)
    else 0

/-- The size of a number. Digits that no longer fit a word are dropped; before the point each of
them counts as a power of ten instead. -/
def roundedSize (n : Decimal.Numeral) : Float :=
  let (whole, beyond) := appendDigits 0 n.whole
  let (word, dropped) := appendDigits whole n.part
  let places := n.part.length - dropped.length
  scaled (Decimal.mk word 0).toFloat (n.scale + beyond.length - places)

/-- A number that is no exact integer; those beyond the range of doubles are refused. -/
def real? (negative : Bool) (n : Decimal.Numeral) : Option Number :=
  let x := Decimal.signed negative (roundedSize n)
  if x.isFinite then some (.real x) else none

/-- A number; the only sign it may have is a minus. -/
def number? (cs : List Char) : Option (Number × List Char) :=
  let (negative, body) := match cs with
    | '-' :: body => (true, body)
    | body => (false, body)
  if isStrict body then
    match Decimal.scan body with
    | none => none
    | some (n, rest) =>
      let plain :=
        if (Decimal.digitRun body).2 = rest then whole? negative (Decimal.natOfDigits n.whole)
        else none
      match plain with
      | some i => some (.whole i, rest)
      | none => (real? negative n).map fun x => (x, rest)
  else none

end Reckoner.Json
