import LexicalReport.Fault
import LexicalReport.Scan.Delimited
import LexicalReport.Scan.Number
import LexicalReport.Scan.Operator
import LexicalReport.Scan.Word

/-! A source text is cut into segments from left to right. Every segment is a skipped character, a
comment, a token or the text of a fault, and it holds at least one character. What a segment is,
and how far it reaches, is decided by the text that lies ahead of it alone. -/

namespace LexicalReport.Scan

open Token (Kind)

inductive Content
  | skipped
  | comment
  | token (kind : Kind)
  | fault (fault : Fault)
deriving DecidableEq, Repr

structure Segment where
  content : Content
  text : List Char
deriving DecidableEq, Repr

def isSkipped (c : Char) : Bool :=
  c == ' ' || c == '\t' || c == '\r' || c == '\n' || c == '\uFEFF'

/-- A string or rune after its opening quote. One that is not closed reaches to the line end. -/
def quotedContent (quote : Char) (kind : Kind) (unclosed : Fault) (rest : List Char) :
    Content × Nat :=
  match quotedLength? quote rest with
  | some n => (.token kind, n)
  | none => (.fault unclosed, lineLength rest)

def runeContent (rest : List Char) : Content × Nat :=
  match quotedContent '\'' .runeLiteral .unterminatedRune rest with
  | (.token _, 1) => (.fault .emptyRune, 1)
  | other => other

def rawContent (rest : List Char) : Content × Nat :=
  match rawLength? '\x60' rest with
  | some n => (.token .stringLiteral, n)
  | none => (.fault .unterminatedString, rest.length)

def blockContent (rest : List Char) : Content × Nat :=
  match blockLength? (rest.drop 1) with
  | some n => (.comment, n + 1)
  | none => (.fault .unterminatedComment, rest.length)

def numberContent (c : Char) (rest : List Char) : Content × Nat :=
  let found := numeral (c :: rest)
  let text := String.ofList ((c :: rest).take found.length)
  match found.kind with
  | some kind => (.token kind, found.length - 1)
  | none => (.fault (.malformedNumber text), found.length - 1)

def wordContent (c : Char) (rest : List Char) : Content × Nat :=
  let n := wordLength rest
  (.token (Kind.ofWord (String.ofList (c :: rest.take n))), n)

def operatorContent (c : Char) (rest : List Char) : Content × Nat :=
  match operatorAt (c :: rest) with
  | some (kind, n) => (.token kind, n - 1)
  | none => (.fault (.illegalCharacter c), 0)

/-- What the segment that begins with a character is, and how many characters it has after it. -/
def contentAt (c : Char) (rest : List Char) : Content × Nat :=
  if isSkipped c then (.skipped, 0)
  else if c = '/' ∧ rest.head? = some '/' then (.comment, lineLength rest)
  else if c = '/' ∧ rest.head? = some '*' then blockContent rest
  else if isWordStart c then wordContent c rest
  else if beginsNumber (c :: rest) then numberContent c rest
  else if c = '"' then quotedContent '"' .stringLiteral .unterminatedString rest
  else if c = '\x60' then rawContent rest
  else if c = '\'' then runeContent rest
  else operatorContent c rest

def segments : List Char → List Segment
  | [] => []
  | c :: rest =>
    let found := contentAt c rest
    ⟨found.1, c :: rest.take found.2⟩ :: segments (rest.drop found.2)
termination_by cs => cs.length
decreasing_by simp only [List.length_drop, List.length_cons]; omega

end LexicalReport.Scan
