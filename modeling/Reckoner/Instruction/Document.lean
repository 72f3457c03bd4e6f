import Reckoner.Instruction.Basic
import Reckoner.Json.Parser
import Reckoner.Json.Printer

set_option autoImplicit false

namespace Reckoner

namespace Literal

def toJson : Literal → Json
  | number x => .object [("number", .ofFloat x)]
  | text s => .object [("text", .string s)]

def ofJson? : Json → Option Literal
  | .object [(name, value)] =>
    if name = "number" then value.float?.map number
    else if name = "text" then value.string?.map text
    else none
  | _ => none

end Literal

namespace Instruction

def operation : Instruction → String
  | push _ => "push_literal"
  | load _ => "push_variable"
  | apply _ _ => "call_operator"
  | collect _ => "make_array"
  | call _ => "call_function"

def parts : Instruction → List (String × Json)
  | push literal => [("value", literal.toJson)]
  | load name => [("name", .string name)]
  | apply symbol arity => [("symbol", .string symbol), ("arity", .ofNat arity)]
  | collect count => [("count", .ofNat count)]
  | call arity => [("arity", .ofNat arity)]

def toJson (i : Instruction) : Json :=
  .object (("op", .string i.operation) :: i.parts)

def partNames (operation : String) : List String :=
  if operation = "push_literal" then ["value"]
  else if operation = "push_variable" then ["name"]
  else if operation = "call_operator" then ["symbol", "arity"]
  else if operation = "make_array" then ["count"]
  else if operation = "call_function" then ["arity"]
  else []

def ofParts? (operation : String) (parts : List Json) : Option Instruction :=
  if operation = "push_literal" then
    match parts with
    | [value] => (Literal.ofJson? value).map push
    | _ => none
  else if operation = "push_variable" then
    match parts with
    | [name] => name.string?.map load
    | _ => none
  else if operation = "call_operator" then
    match parts with
    | [symbol, arity] => do return apply (← symbol.string?) (← arity.count?)
    | _ => none
  else if operation = "make_array" then
    match parts with
    | [count] => count.count?.map collect
    | _ => none
  else if operation = "call_function" then
    match parts with
    | [arity] => arity.count?.map call
    | _ => none
  else none

/-- Fields may stand in any order, and those that are no part of the operation are passed over. -/
def ofJson? : Json → Option Instruction
  | .object fields => do
    let operation ← (← Json.only? fields "op").string?
    let parts ← (partNames operation).mapM (Json.only? fields)
    ofParts? operation parts
  | .array (.string operation :: parts) => ofParts? operation parts
  | _ => none

end Instruction

namespace Program

def toJson (program : Program) : Json :=
  .array (program.map Instruction.toJson)

def render (program : Program) : String :=
  program.toJson.render

def parse? (text : String) : Option Program := do
  let items ← (← Json.parse? text).array?
  items.mapM Instruction.ofJson?

end Program

end Reckoner
