import LexicalReport.Text.Field

/-! Moments of the calendar, as logs show them. A leap second is the last second of its minute with
a nanosecond of a thousand million or more, and its seconds are shown as sixty. -/

namespace LexicalReport.Log

structure Moment where
  year : Int
  month : Nat
  day : Nat
  hour : Nat
  minute : Nat
  second : Nat
  nano : Nat
deriving DecidableEq, Repr

namespace Moment

def twoDigits (n : Nat) : String :=
  Text.zeroPadded 2 n

/-- Years have four digits. A year that needs more, or one below zero, is shown with its sign. -/
def yearText (year : Int) : String :=
  if year < 0 then "-" ++ Text.zeroPadded 4 year.natAbs
  else if year ≤ 9999 then Text.zeroPadded 4 year.natAbs
  else "+" ++ toString year.natAbs

def shownSecond (m : Moment) : Nat :=
  m.second + m.nano / 1000000000

def stamp (m : Moment) : String :=
  twoDigits m.day ++ "-" ++ twoDigits m.month ++ "-" ++ yearText m.year ++ "-" ++
    twoDigits m.hour ++ "h" ++ twoDigits m.minute

def dateAndTime (m : Moment) : String :=
  twoDigits m.day ++ "/" ++ twoDigits m.month ++ "/" ++ yearText m.year ++ " " ++
    twoDigits m.hour ++ ":" ++ twoDigits m.minute ++ ":" ++ twoDigits m.shownSecond

end Moment

end LexicalReport.Log
