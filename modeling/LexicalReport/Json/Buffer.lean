import LexicalReport.Json.Basic
import LexicalReport.Text.Magnitude

/-! Values that a reader may have to set aside before it knows what they mean. Such a value must be
spelled out in full: its texts have to be readable, its numbers have to lie within the range of
double precision, and it may not be nested too deeply. -/

namespace LexicalReport.Json

mutual

/-- Whether a value can be set aside, with room for a number of levels of nesting. -/
def isBufferable (room : Nat) : Json → Bool
  | .null => true
  | .bool _ => true
  | .number literal => (Text.Magnitude.ofLiteral literal.toList).isFinite
  | .string text => text.isSome
  | .array items => 0 < room && itemsBufferable (room - 1) items
  | .object members => 0 < room && membersBufferable (room - 1) members

def itemsBufferable (room : Nat) : List Json → Bool
  | [] => true
  | item :: items => isBufferable room item && itemsBufferable room items

def membersBufferable (room : Nat) : List (Option String × Json) → Bool
  | [] => true
  | (name, item) :: members =>
    name.isSome && isBufferable room item && membersBufferable room members

end

end LexicalReport.Json
