import LexicalReport.Files.Operations
import LexicalReport.Log.Basic

/-! Writing the log of a run into a directory. The directory is made if it is missing, and a log of
the same user and minute is replaced. -/

namespace LexicalReport.Log

open Files (FileSystem Path)

inductive Failure
  | directoryNotMade (path : String) (cause : Files.Failure)
  | fileNotWritten (path : String) (cause : Files.Failure)
deriving DecidableEq, Repr

namespace Failure

def cause : Failure → Files.Failure
  | directoryNotMade _ cause => cause
  | fileNotWritten _ cause => cause

def message : Failure → String
  | directoryNotMade path cause =>
    "failed to create log directory " ++ path ++ ": " ++ cause.message
  | fileNotWritten path cause => "failed to write log file " ++ path ++ ": " ++ cause.message

def trail (failure : Failure) : List String :=
  [failure.message, failure.cause.message]

end Failure

/-- Write the log and give its path. Directories that were made stay if the log itself fails. -/
def write (fs : FileSystem) (reports : List Report) (directory user : String) (moment : Moment) :
    FileSystem × Except Failure String :=
  match fs.makeDirectories directory with
  | (made, .error cause) => (made, .error (.directoryNotMade directory cause))
  | (made, .ok ()) =>
    let path := Path.join directory (fileName user moment)
    match made.writeText path (text reports user moment) with
    | .ok written => (written, .ok path)
    | .error cause => (made, .error (.fileNotWritten path cause))

end LexicalReport.Log
