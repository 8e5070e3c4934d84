import LexicalReport.Text.Magnitude

/-! Scores as they are written: digits after an optional sign, within the range of signed words of
sixty-four bits. -/

namespace LexicalReport.CommandLine

def word? (n : Int) : Option Int64 :=
  if Int64.minValue.toInt ≤ n ∧ n ≤ Int64.maxValue.toInt then some (Int64.ofInt n) else none

def natural? (cs : List Char) : Option Nat :=
  if !cs.isEmpty && cs.all Char.isDigit then some (Text.digitsValue cs) else none

def scoreOfChars? : List Char → Option Int64
  | '+' :: digits => (natural? digits).bind (fun n => word? n)
  | '-' :: digits => (natural? digits).bind (fun n => word? (-n))
  | digits => (natural? digits).bind (fun n => word? n)

def score? (s : String) : Option Int64 :=
  scoreOfChars? s.toList

end LexicalReport.CommandLine
