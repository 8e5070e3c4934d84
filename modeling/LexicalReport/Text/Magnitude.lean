/-! The size of a decimal number as it is written, compared with the range of double precision. The
comparison is exact: a number beyond the bound rounds to infinity, and one below it does not. -/

namespace LexicalReport.Text

def digitsValue (cs : List Char) : Nat :=
  Nat.ofDigitChars 10 cs 0

/-- The digits of a number without its point, and the power of ten that goes with them. -/
structure Magnitude where
  digits : Nat
  exponent : Int

def isSign (c : Char) : Bool :=
  c == '+' || c == '-'

namespace Magnitude

def ofLiteral (literal : List Char) : Magnitude :=
  let unsigned := literal.dropWhile isSign
  let whole := unsigned.takeWhile Char.isDigit
  let afterPoint := (unsigned.dropWhile Char.isDigit).dropWhile (· == '.')
  let fraction := afterPoint.takeWhile Char.isDigit
  let power := (afterPoint.dropWhile Char.isDigit).drop 1
  let size : Int := digitsValue (power.dropWhile isSign)
  ⟨digitsValue (whole ++ fraction),
   (if power.head? = some '-' then -size else size) - fraction.length⟩

/-- The least number that rounds to infinity in double precision. -/
def overflowBound : Nat :=
  Nat.pow 2 1024 - Nat.pow 2 970

/-- Whether a magnitude stays below the bound. Numbers that are far from it are told by the count of
their digits, which keeps the powers of ten small. -/
def isFinite (m : Magnitude) : Bool :=
  let size : Int := (toString m.digits).length + m.exponent
  if m.digits = 0 ∨ size < 309 then true
  else if 310 < size then false
  else if 0 ≤ m.exponent then m.digits * Nat.pow 10 m.exponent.toNat < overflowBound
  else m.digits < overflowBound * Nat.pow 10 (-m.exponent).toNat

end Magnitude

end LexicalReport.Text
