import LexicalReport.Json.Printer
import LexicalReport.Token.Kind

/-! The schema of the document of a run. -/

namespace LexicalReport.Report.Schema

def typed (name : String) (rest : List (String × Json)) : Json :=
  .ofFields (("type", .ofText name) :: rest)

def described (text : String) (json : Json) : Json :=
  match json with
  | .object members => .object ((some "description", .ofText text) :: members)
  | other => other

def string : Json :=
  typed "string" []

def unsigned (format : String) : Json :=
  typed "integer" [("format", .ofText format), ("minimum", .ofNat 0)]

def reference (name : String) : List (String × Json) :=
  [("$ref", .ofText ("#/$defs/" ++ name))]

def arrayOf (name : String) : Json :=
  typed "array" [("items", .ofFields (reference name))]

def names (ns : List String) : Json :=
  .array (ns.map Json.ofText)

/-- An object with properties, all of which are required. The property list is written in the order
of the first argument, the required names in the order of the second. -/
def record (properties : List (String × Json)) (required : List String) : Json :=
  typed "object" [("properties", .ofFields properties), ("required", names required)]

def constant (value : String) : Json :=
  typed "string" [("const", .ofText value)]

def plainFault (tag : String) : Json :=
  record [("kind", constant tag)] ["kind"]

def quotingFault (tag : String) (text : Json) : Json :=
  record [("kind", constant tag), ("text", text)] ["kind", "text"]

def diagnostic : Json :=
  described "A lexical error. Collected alongside tokens; never aborts a scan."
    (typed "object" [
      ("properties", .ofFields [("column", unsigned "uint32"), ("line", unsigned "uint32")]),
      ("oneOf", .array [
        quotingFault "illegal_character"
          (typed "string" [("maxLength", .ofNat 1), ("minLength", .ofNat 1)]),
        plainFault "unterminated_string",
        plainFault "unterminated_rune",
        plainFault "empty_rune",
        plainFault "unterminated_comment",
        quotingFault "malformed_number" string]),
      ("required", names ["line", "column"])])

def report : Json :=
  described "Serialized shape of one report."
    (record [
      ("errors", arrayOf "LexError"),
      ("source", string),
      ("summary", .ofFields (reference "Summary")),
      ("tokens", arrayOf "Token")]
      ["source", "tokens", "errors", "summary"])

def summary : Json :=
  described "Token and error counts for a report."
    (record [
      ("errors", unsigned "uint"),
      ("identifiers", unsigned "uint"),
      ("keywords", unsigned "uint"),
      ("tokens", unsigned "uint")]
      ["tokens", "errors", "keywords", "identifiers"])

def token : Json :=
  described "A recognized token with its source position."
    (record [
      ("column", described "1-based column, counted in characters." (unsigned "uint32")),
      ("kind", .ofFields (reference "TokenKind")),
      ("line", described "1-based line number." (unsigned "uint32")),
      ("value", described "The exact source text of the token." string)]
      ["kind", "value", "line", "column"])

def tokenKind : Json :=
  described ("Kind of a lexical token.\n\n" ++
      "Serialized names match [`TokenKind::name`] (e.g. `INT_LITERAL`, `FUNC`).")
    (typed "string" [("enum", names (Token.Kind.all.map Token.Kind.name))])

def totals : Json :=
  described "Totals across all reports."
    (record [
      ("errors", unsigned "uint"),
      ("files", unsigned "uint"),
      ("tokens", unsigned "uint")]
      ["files", "tokens", "errors"])

def dialect : String :=
  "/".intercalate ["https:", "", "json-schema.org", "draft", "2020-12", "schema"]

def document : Json :=
  .ofFields [
    ("$schema", .ofText dialect),
    ("title", .ofText "JsonDocument"),
    ("description", .ofText "Top-level JSON document."),
    ("type", .ofText "object"),
    ("properties", .ofFields [
      ("reports", arrayOf "ReportView"),
      ("summary", .ofFields (reference "TotalSummary"))]),
    ("required", names ["reports", "summary"]),
    ("$defs", .ofFields [
      ("LexError", diagnostic),
      ("ReportView", report),
      ("Summary", summary),
      ("Token", token),
      ("TokenKind", tokenKind),
      ("TotalSummary", totals)])]

end LexicalReport.Report.Schema
