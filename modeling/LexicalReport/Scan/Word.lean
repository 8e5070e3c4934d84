import LexicalReport.Text.Alphabetic
import LexicalReport.Text.Numeric

/-! Words: identifiers, reserved words and truth values. A digit may continue a word but not begin
one. -/

namespace LexicalReport.Scan

def isWordStart (c : Char) : Bool :=
  c == '_' || Text.isAlphabetic c

def isWordPart (c : Char) : Bool :=
  c == '_' || Text.isAlphabetic c || Text.isNumeric c

def wordLength (cs : List Char) : Nat :=
  (cs.takeWhile isWordPart).length

end LexicalReport.Scan
