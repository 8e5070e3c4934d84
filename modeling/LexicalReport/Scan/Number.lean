import LexicalReport.Token.Kind

/-! Number literals. A zero and a radix letter open an integer with digits of that radix; any other
number is made of a whole part, a fraction and an exponent, each of which may be absent.
Underscores may stand anywhere among the digits. -/

namespace LexicalReport.Scan

open Token (Kind)

def isDecimal (c : Char) : Bool :=
  c == '_' || c.isDigit

def radixDigit? : Char → Option (Char → Bool)
  | 'x' | 'X' => some (fun c => c.isDigit || ('a' ≤ c && c ≤ 'f') || ('A' ≤ c && c ≤ 'F'))
  | 'o' | 'O' => some (fun c => '0' ≤ c && c ≤ '7')
  | 'b' | 'B' => some (fun c => c == '0' || c == '1')
  | _ => none

def decimalLength (cs : List Char) : Nat :=
  (cs.takeWhile isDecimal).length

def headIsDigit (cs : List Char) : Bool :=
  cs.head?.any Char.isDigit

/-- The length of a fraction. A point that a second point follows does not open one. -/
def fractionLength : List Char → Nat
  | '.' :: rest => if rest.head? = some '.' then 0 else 1 + decimalLength rest
  | _ => 0

def exponentLength : List Char → Nat
  | [] => 0
  | mark :: rest =>
    if mark != 'e' && mark != 'E' then 0
    else if headIsDigit rest then 1 + decimalLength rest
    else if rest.head?.any (fun c => c == '+' || c == '-') && headIsDigit (rest.drop 1) then
      2 + decimalLength (rest.drop 1)
    else 0

/-- A number at the front of a text: its length, and its kind unless it is malformed. -/
structure Numeral where
  kind : Option Kind
  length : Nat
deriving Repr

def radixNumeral (isDigit : Char → Bool) (afterLetter : List Char) : Numeral :=
  let digits := afterLetter.takeWhile (fun c => c == '_' || isDigit c)
  ⟨if digits.any (· != '_') then some .intLiteral else none, 2 + digits.length⟩

/-- A number without a radix letter. An integer that begins with a zero is octal, so it is
malformed if it holds an eight or a nine. -/
def plainNumeral (cs : List Char) : Numeral :=
  let whole := cs.takeWhile isDecimal
  let fraction := fractionLength (cs.drop whole.length)
  let exponent := exponentLength (cs.drop (whole.length + fraction))
  ⟨if 0 < fraction + exponent then some .floatLiteral
   else if whole.head? = some '0' ∧ whole.any (fun c => c == '8' || c == '9') then none
   else some .intLiteral,
   whole.length + fraction + exponent⟩

def numeral (cs : List Char) : Numeral :=
  match cs with
  | '0' :: letter :: rest =>
    match radixDigit? letter with
    | some isDigit => radixNumeral isDigit rest
    | none => plainNumeral cs
  | _ => plainNumeral cs

def beginsNumber : List Char → Bool
  | '.' :: rest => headIsDigit rest
  | cs => headIsDigit cs

end LexicalReport.Scan
