import LexicalReport.Files.Operations
import LexicalReport.Report.Basic

/-! Source files and their reports. A source that cannot be reported on is either missing or cannot
be read as a text. -/

namespace LexicalReport.Source

open Files (FileSystem)

inductive Failure
  | notFound (path : String)
  | unreadable (path : String) (cause : Files.Failure)
deriving DecidableEq, Repr

namespace Failure

def message : Failure → String
  | notFound path => "file not found: " ++ path
  | unreadable path cause => "failed to read " ++ path ++ ": " ++ cause.message

def trail (failure : Failure) : List String :=
  match failure with
  | notFound _ => [failure.message]
  | unreadable _ cause => [failure.message, cause.message]

end Failure

def report (fs : FileSystem) (path : String) : Except Failure Report :=
  match fs.readText path with
  | .ok text => .ok (.ofSource path text)
  | .error .notFound => .error (.notFound path)
  | .error cause => .error (.unreadable path cause)

end LexicalReport.Source
