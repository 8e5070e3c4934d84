/-! What can be wrong in a source text. A fault never ends a scan: it is noted with its place, and
the text that caused it is passed over. -/

namespace LexicalReport

inductive Fault
  | illegalCharacter (c : Char)
  | unterminatedString
  | unterminatedRune
  | emptyRune
  | unterminatedComment
  | malformedNumber (text : String)
deriving DecidableEq, Repr

namespace Fault

def message : Fault → String
  | illegalCharacter c => "Illegal character '" ++ String.singleton c ++ "'"
  | unterminatedString => "Unterminated string literal"
  | unterminatedRune => "Unterminated rune literal"
  | emptyRune => "Empty rune literal"
  | unterminatedComment => "Unterminated block comment"
  | malformedNumber text => "Malformed number literal '" ++ text ++ "'"

def tag : Fault → String
  | illegalCharacter _ => "illegal_character"
  | unterminatedString => "unterminated_string"
  | unterminatedRune => "unterminated_rune"
  | emptyRune => "empty_rune"
  | unterminatedComment => "unterminated_comment"
  | malformedNumber _ => "malformed_number"

def quoted? : Fault → Option String
  | illegalCharacter c => some (String.singleton c)
  | malformedNumber text => some text
  | _ => none

end Fault

/-- A fault and the place of the first character it concerns. -/
structure Diagnostic where
  fault : Fault
  line : UInt32
  column : UInt32
deriving DecidableEq, Repr

namespace Diagnostic

def message (d : Diagnostic) : String :=
  d.fault.message ++ " at line " ++ toString d.line.toNat ++ ", column " ++ toString d.column.toNat

end Diagnostic

end LexicalReport
