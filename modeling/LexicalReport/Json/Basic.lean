import LexicalReport.Text.Magnitude

/-! JSON documents. A number keeps the digits it was written with, and an object keeps its members
in their order, repeated names included. Escapes may spell half of a surrogate pair, which is no
character; a string or a member name with such an escape stands here without a text. -/

namespace LexicalReport

inductive Json
  | null
  | bool (value : Bool)
  | number (literal : String)
  | string (text : Option String)
  | array (items : List Json)
  | object (members : List (Option String × Json))

namespace Json

def ofText (s : String) : Json :=
  .string (some s)

def ofNat (n : Nat) : Json :=
  .number (toString n)

def ofFields (fields : List (String × Json)) : Json :=
  .object (fields.map (fun field => (some field.1, field.2)))

def text? : Json → Option String
  | .string text => text
  | _ => none

def natural? : Json → Option Nat
  | .number literal =>
    if literal.toList.all Char.isDigit then some (Text.digitsValue literal.toList) else none
  | _ => none

/-- The value of a member. A name that is missing or repeated has none. -/
def field? (members : List (Option String × Json)) (name : String) : Option Json :=
  match members.filter (fun member => member.1 == some name) with
  | [member] => some member.2
  | _ => none

def namesReadable (members : List (Option String × Json)) : Bool :=
  members.all (fun member => member.1.isSome)

end Json

end LexicalReport
