/-! Scores are signed words of sixty-four bits. A sum of two scores wraps around at the limits of
the word; half of it is cut off toward zero. A grade is read off a score by two thresholds. -/

namespace LexicalReport

def average (a b : Int64) : Int64 :=
  (a + b) / 2

inductive Grade
  | regular
  | good
  | excellent
deriving DecidableEq, Repr

namespace Grade

def excellentThreshold : Int64 := 90

def goodThreshold : Int64 := 70

/-- A score on a threshold belongs to the higher grade. -/
def ofScore (score : Int64) : Grade :=
  if excellentThreshold ≤ score then excellent
  else if goodThreshold ≤ score then good
  else regular

def label : Grade → String
  | regular => "Regular"
  | good => "Good"
  | excellent => "Excellent"

def rank : Grade → Nat
  | regular => 0
  | good => 1
  | excellent => 2

end Grade

end LexicalReport
