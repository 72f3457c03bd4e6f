import Reckoner.Text.Combining
import Reckoner.Text.Unprintable

set_option autoImplicit false

namespace Reckoner.Text

/-- The characters that stand in quoted text as they are, the six with a mark of their own aside. -/
def isShown (c : Char) : Bool :=
  (0x20 ≤ c.toNat && c.toNat < 0x7F) || !(isUnprintable c || isCombining c)

/-- A code point in braces, in lower-case hexadecimal without leading zeros. -/
def escapedCodePoint (c : Char) : List Char :=
  '\\' :: 'u' :: '\x7b' :: (Nat.toDigits 16 c.toNat ++ ['\x7d'])

/-- How one character is written between quotes. -/
def escaped (c : Char) : List Char :=
  if c = '\x00' then ['\\', '0']
  else if c = '\t' then ['\\', 't']
  else if c = '\r' then ['\\', 'r']
  else if c = '\n' then ['\\', 'n']
  else if c = '\\' then ['\\', '\\']
  else if c = '\x22' then ['\\', '\x22']
  else if isShown c then [c]
  else escapedCodePoint c

def quoted (text : String) : String :=
  String.ofList ('\x22' :: (text.toList.flatMap escaped ++ ['\x22']))

end Reckoner.Text
