import LexicalReport.Json.Printer
import LexicalReport.Report.Basic

/-! Reports as JSON. The document of a run holds one entry for each report, with its own summary,
and the totals over all of them. -/

namespace LexicalReport

def Token.toJson (token : Token) : Json :=
  .ofFields [
    ("kind", .ofText token.kind.name),
    ("value", .ofText token.value),
    ("line", .ofNat token.line.toNat),
    ("column", .ofNat token.column.toNat)]

def Diagnostic.toJson (d : Diagnostic) : Json :=
  .ofFields (("kind", .ofText d.fault.tag) ::
    (d.fault.quoted?.toList.map (fun text => ("text", Json.ofText text)) ++
      [("line", .ofNat d.line.toNat), ("column", .ofNat d.column.toNat)]))

def Summary.toJson (s : Summary) : Json :=
  .ofFields [
    ("tokens", .ofNat s.tokens),
    ("errors", .ofNat s.errors),
    ("keywords", .ofNat s.keywords),
    ("identifiers", .ofNat s.identifiers)]

namespace Report

def toJson (r : Report) : Json :=
  .ofFields [
    ("source", .ofText r.source),
    ("tokens", .array (r.tokens.map Token.toJson)),
    ("errors", .array (r.errors.map Diagnostic.toJson)),
    ("summary", r.summary.toJson)]

def document (reports : List Report) : Json :=
  let totals := Totals.ofReports reports
  .ofFields [
    ("reports", .array (reports.map toJson)),
    ("summary", .ofFields [
      ("files", .ofNat totals.files),
      ("tokens", .ofNat totals.tokens),
      ("errors", .ofNat totals.errors)])]

def renderJson (reports : List Report) : String :=
  (document reports).print ++ "\n"

end Report

end LexicalReport
