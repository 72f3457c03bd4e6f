import Reckoner.Decimal.Plain
import Reckoner.Instruction.Basic
import Reckoner.Text.Quoted

set_option autoImplicit false

namespace Reckoner

/-- A number in a listing. Unlike the text of a value it keeps the sign of a zero. -/
def Literal.numberColumn (x : Float) : String :=
  if x.isNaN then "NaN"
  else if x.isInf then (if x < 0 then "-inf" else "inf")
  else String.ofList (Decimal.plain x)

namespace Instruction

def line : Instruction → String
  | push (.number x) => "RAW_VALUE\t" ++ Literal.numberColumn x
  | push (.text s) => "RAW_VALUE\t" ++ Text.quoted s
  | load name => "VARIABLE\t" ++ Text.quoted name
  | apply symbol arity => "CALL_OP\t" ++ Text.quoted symbol ++ "\t" ++ toString arity
  | collect count => "MAKE_ARRAY\t" ++ toString count
  | call arity => "CALL_FUNC\t" ++ toString arity

end Instruction

def Program.listing (program : Program) : List String :=
  program.map Instruction.line

end Reckoner
