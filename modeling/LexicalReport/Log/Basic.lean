import LexicalReport.Log.Moment
import LexicalReport.Report.Terminal

/-! The log of a run: its file name and its text. A log lists the tokens and the faults of every
report, each on a line of its own. Section headings name their source only if there are several. -/

namespace LexicalReport.Log

open Report (rule ruleWidth)

def fileStem : String := "lexico"

def fileName (user : String) (moment : Moment) : String :=
  fileStem ++ "-" ++ user ++ "-" ++ moment.stamp ++ ".txt"

def thinRule : String :=
  String.ofList (List.replicate ruleWidth '-')

def headerLines (reports : List Report) (user : String) (moment : Moment) : List String :=
  [rule, "LEXICAL ANALYSIS - GO LANGUAGE", rule] ++
    reports.map (fun r => "File analyzed: " ++ r.source) ++
    ["Date and time: " ++ moment.dateAndTime, "User: " ++ user, rule]

def countLine (title : String) (count : Nat) (suffix : String) : String :=
  title ++ " (" ++ toString count ++ ")" ++ suffix

def errorLines (errors : List Diagnostic) : List String :=
  if errors.isEmpty then ["No lexical errors found."] else errors.map Diagnostic.message

def reportLines (suffix : String) (r : Report) : List String :=
  ["", countLine "RECOGNIZED TOKENS" r.tokens.length suffix, thinRule] ++
    r.tokens.map Token.displayLine ++
    ["", rule, countLine "LEXICAL ERRORS" r.errors.length suffix, thinRule] ++
    errorLines r.errors

def headingSuffix (labeled : Bool) (r : Report) : String :=
  if labeled then " - " ++ r.source else ""

def textLines (reports : List Report) (user : String) (moment : Moment) : List String :=
  let labeled := 1 < reports.length
  headerLines reports user moment ++
    reports.flatMap (fun r => reportLines (headingSuffix labeled r) r) ++
    ["", rule, "END OF ANALYSIS", rule]

def text (reports : List Report) (user : String) (moment : Moment) : String :=
  Text.lines (textLines reports user moment)

end LexicalReport.Log
