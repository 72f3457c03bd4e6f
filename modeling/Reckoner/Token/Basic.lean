set_option autoImplicit false

namespace Reckoner

inductive TokenKind where
  | number
  | string
  | operator
  | word
  | whitespace
  | openParen
  | closeParen
  | openBracket
  | closeBracket
deriving DecidableEq, Repr

namespace TokenKind

def endsOperand : TokenKind → Bool
  | number => true
  | string => true
  | word => true
  | closeParen => true
  | closeBracket => true
  | _ => false

def label : TokenKind → String
  | number => "Number"
  | string => "String"
  | operator => "Operator"
  | word => "Word"
  | whitespace => "Whitespace"
  | openParen => "OpenParenthesis"
  | closeParen => "CloseParenthesis"
  | openBracket => "OpenSquare"
  | closeBracket => "CloseSquare"

end TokenKind

structure Token where
  kind : TokenKind
  /-- The token as it stands in the source. -/
  raw : String
  /-- The offset of its first byte. -/
  start : Nat
deriving DecidableEq, Repr

namespace Token

/-- The offset just after its last byte. -/
def stop (t : Token) : Nat :=
  t.start + t.raw.utf8ByteSize

def columnWidth : Nat := 9

/-- The token, filled up with spaces to the width of its column, and the name of its kind. -/
def describe (t : Token) : String :=
  t.raw ++ String.ofList (List.replicate (columnWidth - t.raw.length) ' ') ++ " " ++ t.kind.label

end Token

end Reckoner
