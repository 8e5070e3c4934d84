import LexicalReport.Report.Encoding
import LexicalReport.Report.Terminal

/-! The two formats in which a run can show its reports. -/

namespace LexicalReport.Report

inductive Format
  | terminal
  | json
deriving DecidableEq, Repr

namespace Format

def name : Format → String
  | terminal => "terminal"
  | json => "json"

def ofName? (name : String) : Option Format :=
  if name = "terminal" then some terminal else if name = "json" then some json else none

/-- The format of a name in capital or small letters. Only ASCII letters fold here: no other
character has a small form that occurs in a name. -/
def ofAnyCase? (name : String) : Option Format :=
  ofName? (name.map Char.toLower)

def unknownMessage (name : String) : String :=
  "unknown output format: " ++ name

def render (format : Format) (color : Bool) (reports : List Report) : String :=
  match format with
  | terminal => renderTerminal color reports
  | json => renderJson reports

end Format

end LexicalReport.Report
