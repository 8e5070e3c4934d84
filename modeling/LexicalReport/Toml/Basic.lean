/-! TOML documents as trees. A number or a date keeps the form it was written in; only whole numbers
have their value read. A table remembers how it came to be, since that decides what may still be
added to it. -/

namespace LexicalReport.Toml

/-- Written between braces and hence complete, opened by a header of its own, or named on the way to
the table of a header or to a dotted key. -/
inductive Origin
  | inline
  | header
  | passed
  | dotted
deriving DecidableEq, Repr

inductive Value
  | string (text : String)
  | integer (n : Int)
  | float (literal : String)
  | boolean (b : Bool)
  | moment (literal : String)
  | array (items : List Value)
  | table (origin : Origin) (entries : List (String × Value))
  /-- The tables that headers in double brackets append. -/
  | tables (items : List (List (String × Value)))

abbrev Entries := List (String × Value)

namespace Entries

def find? (entries : Entries) (key : String) : Option Value :=
  (List.find? (fun entry => entry.1 == key) entries).map Prod.snd

/-- The entries with a key set, at its old position if it has one. -/
def put (key : String) (value : Value) : Entries → Entries
  | [] => [(key, value)]
  | entry :: rest => if entry.1 = key then (key, value) :: rest else entry :: put key value rest

end Entries

end LexicalReport.Toml
