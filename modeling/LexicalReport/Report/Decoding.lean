import LexicalReport.Json.Buffer
import LexicalReport.Json.Reader
import LexicalReport.Report.Basic

/-! Reports read back from JSON. Every field must be there exactly once, in any order, and other
members are passed over. A token or a report may also be an array of exactly its fields. -/

namespace LexicalReport

namespace Decoding

def word? (json : Json) : Option UInt32 :=
  json.natural?.bind (fun n => if n < UInt32.size then some n.toUInt32 else none)

def list? {α : Type} (item? : Json → Option α) : Json → Option (List α)
  | .array items => items.mapM item?
  | _ => none

end Decoding

open Decoding

/-- A kind is its name, or an object with that name alone and nothing under it. -/
def Token.Kind.ofJson? : Json → Option Token.Kind
  | .string (some name) => ofName? name
  | .object [(some name, .null)] => ofName? name
  | _ => none

def Token.ofFields? (kind value line column : Json) : Option Token := do
  return ⟨← Kind.ofJson? kind, ← value.text?, ← word? line, ← word? column⟩

def Token.ofJson? : Json → Option Token
  | .object members =>
    if Json.namesReadable members then do
      ofFields? (← Json.field? members "kind") (← Json.field? members "value")
        (← Json.field? members "line") (← Json.field? members "column")
    else none
  | .array [kind, value, line, column] => ofFields? kind value line column
  | _ => none

namespace Fault

def tag? : Json → Option String
  | .string (some name) => some name
  | .object [(some name, .null)] => some name
  | .object [(some name, .object [])] => some name
  | _ => none

/-- The fault of a tag and the text beside it. A fault that quotes nothing allows a null there. -/
def ofParts? (tag : String) (text : Option Json) : Option Fault :=
  match tag, text with
  | "illegal_character", some (.string (some quote)) =>
    match quote.toList with
    | [c] => some (illegalCharacter c)
    | _ => none
  | "malformed_number", some (.string (some quote)) => some (malformedNumber quote)
  | "unterminated_string", none | "unterminated_string", some .null => some unterminatedString
  | "unterminated_rune", none | "unterminated_rune", some .null => some unterminatedRune
  | "empty_rune", none | "empty_rune", some .null => some emptyRune
  | "unterminated_comment", none | "unterminated_comment", some .null => some unterminatedComment
  | _, _ => none

/-- The fault among the members of an object; the text is optional but may not be repeated. -/
def ofMembers? (members : List (Option String × Json)) : Option Fault := do
  let tag ← tag? (← Json.field? members "kind")
  if members.any (fun member => member.1 == some "text") then
    ofParts? tag (some (← Json.field? members "text"))
  else ofParts? tag none

end Fault

/-- Members other than the place of a fault are set aside until its tag is known, so they all have
to be bufferable. -/
def Diagnostic.ofJson? (room : Nat) : Json → Option Diagnostic
  | .object members =>
    let others := members.filter (fun m => m.1 != some "line" && m.1 != some "column")
    if Json.namesReadable members && Json.membersBufferable (room - 1) others then do
      return ⟨← Fault.ofMembers? others, ← word? (← Json.field? members "line"),
        ← word? (← Json.field? members "column")⟩
    else none
  | _ => none

namespace Report

def depthLimit : Nat := 127

def ofFields? (room : Nat) (source tokens errors : Json) : Option Report := do
  return ⟨← source.text?, ← list? Token.ofJson? tokens,
    ← list? (Diagnostic.ofJson? (room - 1)) errors⟩

/-- A report, with room for a number of levels of nesting, its own included. -/
def ofJson? (room : Nat) : Json → Option Report
  | .object members =>
    if Json.namesReadable members then do
      ofFields? (room - 1) (← Json.field? members "source") (← Json.field? members "tokens")
        (← Json.field? members "errors")
    else none
  | .array [source, tokens, errors] => ofFields? (room - 1) source tokens errors
  | _ => none

def read? (s : String) : Option Report := do
  ofJson? depthLimit (← Json.read? s)

def readList? (s : String) : Option (List Report) := do
  list? (ofJson? (depthLimit - 1)) (← Json.read? s)

end Report

end LexicalReport
