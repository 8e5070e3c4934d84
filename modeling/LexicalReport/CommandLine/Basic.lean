import LexicalReport.Report.Format

/-! Commands and what a command line asks for, or why it is refused. Asking for help or for the
version also ends the reading of a command line. -/

namespace LexicalReport.CommandLine

structure LexRequest where
  path : String
  format : Option Report.Format := none
  noLog : Bool := false
  logDirectory : Option String := none
  user : Option String := none
  failOnError : Bool := false
deriving DecidableEq, Repr

inductive Command
  | average (first second : Int64)
  | grade (points : Int64)
  | lex (request : LexRequest)
  | schema
  | version
deriving DecidableEq, Repr

structure Invocation where
  verbose : Bool
  command : Command
deriving DecidableEq, Repr

inductive Refusal
  | helpWanted
  | versionWanted
  | nothingGiven
  | missingCommand
  | unknownCommand
  | unknownArgument
  | missingArgument
  | malformedScore
  | unusableValue
  | conflict
  | surplusValue
deriving DecidableEq, Repr

namespace Refusal

def exitCode : Refusal → UInt32
  | helpWanted | versionWanted => 0
  | _ => 2

end Refusal

end LexicalReport.CommandLine
