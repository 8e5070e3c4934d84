import LexicalReport.Toml.Scalar
import LexicalReport.Toml.Table

/-! Reading TOML. A document is a sequence of lines, each of them a header, an assignment, or
empty; its tree grows from line to line. -/

namespace LexicalReport.Toml

def inlineEntries? (assignments : List (List String × Value)) : Option Entries :=
  assignments.foldlM (fun entries (parts, value) =>
    match parts.getLast? with
    | some key => Entries.assign true parts.dropLast key value entries
    | none => none) []

mutual

/-- A value and the text after it. The second argument counts the arrays and tables around it. -/
def value? : Nat → Nat → List Char → Option (Value × List Char)
  | 0, _, _ => none
  | fuel + 1, depth, cs =>
    match cs with
    | '"' :: _ | '\'' :: _ =>
      (string? cs).map (fun (text, after) => (.string (String.ofList text), after))
    | '[' :: rest =>
      if depth + 1 < depthLimit then
        (items? fuel (depth + 1) rest).map (fun (items, after) => (.array items, after))
      else none
    | '{' :: rest =>
      if depth + 1 < depthLimit then do
        let (assignments, after) ←
          match skipSpace rest with
          | '}' :: after => some ([], after)
          | _ => assignments? fuel (depth + 1) rest
        return (.table .inline (← inlineEntries? assignments), after)
      else none
    | 't' :: 'r' :: 'u' :: 'e' :: after => some (.boolean true, after)
    | 'f' :: 'a' :: 'l' :: 's' :: 'e' :: after => some (.boolean false, after)
    | c :: _ =>
      if c.isDigit || Text.isSign c then number? cs else special? cs
    | [] => none

def items? : Nat → Nat → List Char → Option (List Value × List Char)
  | 0, _, _ => none
  | fuel + 1, depth, cs => do
    match ← skipLines (cs.length + 1) cs with
    | ']' :: after => return ([], after)
    | rest => do
      let (item, afterItem) ← value? fuel depth rest
      match ← skipLines (afterItem.length + 1) afterItem with
      | ',' :: more => do
        let (items, after) ← items? fuel depth more
        return (item :: items, after)
      | ']' :: after => return ([item], after)
      | _ => none

def assignments? : Nat → Nat → List Char → Option (List (List String × Value) × List Char)
  | 0, _, _ => none
  | fuel + 1, depth, cs => do
    let (parts, afterKey) ← key? cs
    let (value, afterValue) ← value? fuel depth (skipSpace (← after? '=' afterKey))
    match skipSpace afterValue with
    | ',' :: more => do
      let (others, after) ← assignments? fuel depth more
      return ((parts, value) :: others, after)
    | '}' :: after => return ([(parts, value)], after)
    | _ => none

end

inductive Line
  | blank
  | header (parts : List String)
  | itemHeader (parts : List String)
  | assignment (parts : List String) (value : Value)

def line? (cs : List Char) : Option (Line × List Char) :=
  match skipSpace cs with
  | '[' :: '[' :: rest => do
    let (parts, afterKey) ← key? rest
    return (.itemHeader parts, ← lineEnd? (← after? ']' (← after? ']' afterKey)))
  | '[' :: rest => do
    let (parts, afterKey) ← key? rest
    return (.header parts, ← lineEnd? (← after? ']' afterKey))
  | rest =>
    match lineEnd? rest with
    | some after => some (.blank, after)
    | none => do
      let (parts, afterKey) ← key? rest
      let afterSign ← after? '=' afterKey
      let (value, afterValue) ← value? (cs.length + 1) 0 (skipSpace afterSign)
      return (.assignment parts value, ← lineEnd? afterValue)

/-- A document that is being read: its tree, and the path of the table opened last. -/
structure Draft where
  root : Entries
  current : List String

namespace Draft

def add? (draft : Draft) : Line → Option Draft
  | .blank => some draft
  | .header parts => do
    let root ← Entries.within (Entries.openTable (parts.getLastD "")) parts.dropLast draft.root
    return ⟨root, parts⟩
  | .itemHeader parts => do
    let root ← Entries.within (Entries.openItem (parts.getLastD "")) parts.dropLast draft.root
    return ⟨root, parts⟩
  | .assignment parts value => do
    let root ← Entries.within (Entries.assign true parts.dropLast (parts.getLastD "") value)
      draft.current draft.root
    return { draft with root }

end Draft

def draft? : Nat → Draft → List Char → Option Draft
  | 0, _, _ => none
  | _ + 1, draft, [] => some draft
  | fuel + 1, draft, cs => do
    let (line, after) ← line? cs
    draft? fuel (← draft.add? line) after

def read? (s : String) : Option Entries :=
  let cs := match s.toList with
    | '\uFEFF' :: rest => rest
    | other => other
  (draft? (cs.length + 1) ⟨[], []⟩ cs).map Draft.root

end LexicalReport.Toml
