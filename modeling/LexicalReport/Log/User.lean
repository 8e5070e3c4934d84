import LexicalReport.Text.Blank

/-! The user a log is written for. A name is used without its blanks and without the characters that
separate the parts of a path; a name of which nothing is left counts as none. -/

namespace LexicalReport.Log

def isKept (c : Char) : Bool :=
  !(Text.isBlank c || c == '/' || c == '\\' || c == ':')

def sanitize (raw : String) : String :=
  String.ofList (raw.toList.filter isKept)

def usable? (raw : Option String) : Option String :=
  (raw.map sanitize).filter (fun user => user != "")

def fallbackUser : String := "user"

def resolveUser (configured versionControl : Option String) : String :=
  ((usable? configured).or (usable? versionControl)).getD fallbackUser

end LexicalReport.Log
