import Reckoner.Json.Basic
import Reckoner.Decimal.Plain

set_option autoImplicit false

namespace Reckoner.Json

/-- How one character is written in a string. -/
def escaped (c : Char) : List Char :=
  if c = '\x22' then ['\\', '\x22']
  else if c = '\\' then ['\\', '\\']
  else if c = '\x08' then ['\\', 'b']
  else if c = '\t' then ['\\', 't']
  else if c = '\n' then ['\\', 'n']
  else if c = '\x0c' then ['\\', 'f']
  else if c = '\r' then ['\\', 'r']
  else if c.toNat < 0x10 then '\\' :: 'u' :: '0' :: '0' :: '0' :: Nat.toDigits 16 c.toNat
  else if c.toNat < 0x20 then '\\' :: 'u' :: '0' :: '0' :: Nat.toDigits 16 c.toNat
  else [c]

def stringChars (s : String) : List Char :=
  '\x22' :: (s.toList.flatMap escaped ++ ['\x22'])

def positionalPowers : Int × Int := (-5, 15)

/-- A positive decimal: positional with at least one place after the point, or with an exponent. -/
def decimalChars (d : Decimal) : List Char :=
  let power := d.magnitude - 1
  if positionalPowers.1 ≤ power ∧ power ≤ positionalPowers.2 then
    if 0 ≤ d.exponent then d.positional ++ ['.', '0'] else d.positional
  else d.scientific

def readsBack (x : Float) (d : Decimal) : Bool :=
  (Decimal.parse? (decimalChars d)).any fun r => r.toFloat == x

/-- The shortest form of a double, a half of the last place going to the even digit; `null` for the
doubles that are no number of JSON. -/
def floatChars (x : Float) : List Char :=
  if x.isFinite then
    Decimal.withSign x <|
      if x == 0 then ['0', '.', '0']
      else decimalChars (Decimal.shortest .even (readsBack (Decimal.size x)) (Decimal.size x))
  else ['n', 'u', 'l', 'l']

def Number.chars : Number → List Char
  | whole (.ofNat n) => Nat.toDigits 10 n
  | whole (.negSucc n) => '-' :: Nat.toDigits 10 (n + 1)
  | real x => floatChars x

mutual

def chars : Json → List Char
  | null => ['n', 'u', 'l', 'l']
  | bool true => ['t', 'r', 'u', 'e']
  | bool false => ['f', 'a', 'l', 's', 'e']
  | number n => n.chars
  | string s => stringChars s
  | array items => '[' :: (elementChars items ++ [']'])
  | object fields => '\x7b' :: (fieldChars fields ++ ['\x7d'])

def elementChars : List Json → List Char
  | [] => []
  | [j] => chars j
  | j :: k :: rest => chars j ++ ',' :: elementChars (k :: rest)

def fieldChars : List (String × Json) → List Char
  | [] => []
  | [(name, j)] => stringChars name ++ ':' :: chars j
  | (name, j) :: f :: rest => stringChars name ++ ':' :: (chars j ++ ',' :: fieldChars (f :: rest))

end

def render (j : Json) : String :=
  String.ofList j.chars

end Reckoner.Json
