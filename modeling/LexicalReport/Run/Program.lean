import LexicalReport.CommandLine.Reader
import LexicalReport.CommandLine.Usage
import LexicalReport.Grade
import LexicalReport.Report.Schema
import LexicalReport.Run.Lex

/-! A whole run of the program, from the words of its command line to its outcome. -/

namespace LexicalReport.Run

open CommandLine (Command Refusal)

def versionText (color : Bool) (target : String) : String :=
  Text.lines [
    Style.bold.paint color CommandLine.programName ++ " " ++
      Style.boldGreen.paint color CommandLine.programVersion,
    Style.dimmed.paint color "target:" ++ "     " ++ target]

def command (world : World) : Command → Outcome
  | .average first second =>
    .success world (toString (average first second).toInt ++ "\n")
  | .grade points => .success world ((Grade.ofScore points).label ++ "\n")
  | .lex request => lex world request
  | .schema => .success world (Report.Schema.document.print ++ "\n")
  | .version => .success world (versionText world.color world.target)

def refusal (world : World) (r : Refusal) : Outcome :=
  ⟨r.exitCode, r.answer, none, none, world.files⟩

def program (world : World) (words : List String) : Outcome :=
  match CommandLine.read words with
  | .ok invocation => command world invocation.command
  | .error r => refusal world r

end LexicalReport.Run
