import Reckoner.Json.Basic
import Reckoner.Token.Basic

set_option autoImplicit false

namespace Reckoner

namespace TokenKind

def name : TokenKind → String
  | number => "Number"
  | string => "String"
  | operator => "Operator"
  | word => "Word"
  | whitespace => "Whitespace"
  | openParen => "OpenParen"
  | closeParen => "CloseParen"
  | openBracket => "OpenBracket"
  | closeBracket => "CloseBracket"

def all : List TokenKind :=
  [number, string, operator, word, whitespace, openParen, closeParen, openBracket, closeBracket]

def ofName? (s : String) : Option TokenKind :=
  all.find? fun kind => kind.name == s

/-- A kind is its name, or an object with nothing under that name. -/
def ofJson? : Json → Option TokenKind
  | .string s => ofName? s
  | .object [(s, .null)] => ofName? s
  | _ => none

end TokenKind

namespace Token

/-- A token is an object with three fields among any others, or an array of the three in order. -/
def ofJson? (j : Json) : Option Token := do
  let parts ← match j with
    | .object fields => ["kind", "raw", "start"].mapM (Json.only? fields)
    | .array parts => some parts
    | _ => none
  match parts with
  | [kind, raw, start] =>
    return ⟨← TokenKind.ofJson? kind, ← raw.string?, ← start.count?⟩
  | _ => none

end Token

end Reckoner
