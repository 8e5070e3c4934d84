import LexicalReport.Report.Basic
import LexicalReport.Report.Style

/-! Reports for a terminal: an aligned line for each token, a summary, and the faults if there are
any. Fields are padded before they are styled, so the columns line up with and without colors. -/

namespace LexicalReport.Report

def ruleWidth : Nat := 80

def rule : String :=
  String.ofList (List.replicate ruleWidth '=')

namespace Terminal

def banner (color : Bool) (title : String) : String :=
  Text.lines [Style.dimmed.paint color rule, Style.bold.paint color title,
    Style.dimmed.paint color rule]

def tokenLine (color : Bool) (token : Token) : String :=
  token.lineOf (Style.cyan.paint color (Text.padRight Token.kindWidth token.kind.name))
    (Style.bold.paint color (Text.padRight Token.valueWidth token.value))

def errorLine (color : Bool) (d : Diagnostic) : String :=
  " " ++ Style.boldRed.paint color "✖" ++ " " ++ d.message

def tokenCountLine (color : Bool) (s : Summary) : String :=
  "Recognized tokens: " ++ Style.boldGreen.paint color (toString s.tokens)

def errorCountLine (color : Bool) (s : Summary) : String :=
  let style := if s.errors = 0 then Style.boldGreen else Style.boldRed
  "Errors found: " ++ style.paint color (toString s.errors)

def errorBlock (color : Bool) (errors : List Diagnostic) : String :=
  if errors.isEmpty then ""
  else "\n" ++ banner color "ERRORS" ++ Text.lines (errors.map (errorLine color))

def block (color : Bool) (r : Report) : String :=
  banner color ("LEXICAL ANALYSIS: " ++ r.source) ++ "\n" ++
    Text.lines (r.tokens.map (tokenLine color)) ++ "\n" ++ banner color "SUMMARY" ++
    Text.lines [tokenCountLine color r.summary, errorCountLine color r.summary] ++
    errorBlock color r.errors

end Terminal

def renderTerminal (color : Bool) (reports : List Report) : String :=
  if reports.isEmpty then Style.yellow.paint color "  ✔ No Go source files found.\n"
  else "\n".intercalate (reports.map (Terminal.block color))

end LexicalReport.Report
