import LexicalReport.Text.Magnitude
import LexicalReport.Toml.Basic
import LexicalReport.Toml.Text

/-! Numbers and dates of TOML. A digit run may hold underscores, each between two digits. -/

namespace LexicalReport.Toml

def digitRun? (isDigit : Char → Bool) : List Char → Option (List Char × List Char)
  | c :: '_' :: rest =>
    if isDigit c then (digitRun? isDigit rest).map (fun (ds, after) => (c :: ds, after)) else none
  | c :: d :: rest =>
    if isDigit c then
      if isDigit d then
        (digitRun? isDigit (d :: rest)).map (fun (ds, after) => (c :: ds, after))
      else some ([c], d :: rest)
    else none
  | [c] => if isDigit c then some ([c], []) else none
  | [] => none

def sign? : List Char → List Char × List Char
  | '+' :: rest => (['+'], rest)
  | '-' :: rest => (['-'], rest)
  | cs => ([], cs)

def wholePart? (cs : List Char) : Option (List Char × List Char) :=
  let (sign, unsigned) := sign? cs
  match unsigned with
  | '0' :: rest => some (sign ++ ['0'], rest)
  | _ => (digitRun? Char.isDigit unsigned).map (fun (ds, after) => (sign ++ ds, after))

def exponentPart? (cs : List Char) : Option (List Char × List Char) :=
  match cs with
  | mark :: rest =>
    if mark == 'e' || mark == 'E' then
      let (sign, unsigned) := sign? rest
      (digitRun? Char.isDigit unsigned).map (fun (ds, after) => (mark :: sign ++ ds, after))
    else none
  | [] => none

def decimal? (cs : List Char) : Option (List Char × List Char) := do
  let (whole, afterWhole) ← wholePart? cs
  match afterWhole with
  | '.' :: rest => do
    let (fraction, afterFraction) ← digitRun? Char.isDigit rest
    let text := whole ++ '.' :: fraction
    if afterFraction.head?.any (fun c => c == 'e' || c == 'E') then do
      let (power, after) ← exponentPart? afterFraction
      return (text ++ power, after)
    else return (text, afterFraction)
  | _ => do
    let (power, after) ← exponentPart? afterWhole
    return (whole ++ power, after)

def special? (cs : List Char) : Option (Value × List Char) :=
  let (sign, unsigned) := sign? cs
  match unsigned with
  | 'i' :: 'n' :: 'f' :: after => some (.float (String.ofList (sign ++ ['i', 'n', 'f'])), after)
  | 'n' :: 'a' :: 'n' :: after => some (.float (String.ofList (sign ++ ['n', 'a', 'n'])), after)
  | _ => none

/-- A number with a point or an exponent. One above the range of double precision is refused; below
that range it counts as infinite. -/
def float? (cs : List Char) : Option (Value × List Char) :=
  match decimal? cs with
  | some (text, after) =>
    if text.head? = some '-' || (Text.Magnitude.ofLiteral text).isFinite then
      some (.float (String.ofList text), after)
    else none
  | none => special? cs

def int64? (n : Int) : Option Value :=
  if Int64.minValue.toInt ≤ n ∧ n ≤ Int64.maxValue.toInt then some (.integer n) else none

def radixValue (radix : Nat) (digits : List Char) : Nat :=
  digits.foldl (fun n c => radix * n + (Text.hexValue? c).getD 0) 0

def radixInteger? (radix : Nat) (isDigit : Char → Bool) (cs : List Char) :
    Option (Value × List Char) := do
  let (digits, after) ← digitRun? isDigit cs
  return (← int64? (radixValue radix digits), after)

def integer? (cs : List Char) : Option (Value × List Char) :=
  match cs with
  | '0' :: 'x' :: rest => radixInteger? 16 (fun c => (Text.hexValue? c).isSome) rest
  | '0' :: 'o' :: rest => radixInteger? 8 (fun c => '0' ≤ c && c ≤ '7') rest
  | '0' :: 'b' :: rest => radixInteger? 2 (fun c => c == '0' || c == '1') rest
  | _ => do
    let (text, after) ← wholePart? cs
    let size : Int := radixValue 10 (text.dropWhile Text.isSign)
    return (← int64? (if text.head? = some '-' then -size else size), after)

def dateField? (count low high : Nat) (cs : List Char) : Option (Nat × List Char) :=
  let digits := cs.take count
  let n := Text.digitsValue digits
  if digits.length = count && digits.all Char.isDigit && low ≤ n && n ≤ high then
    some (n, cs.drop count)
  else none

def after? (c : Char) : List Char → Option (List Char)
  | d :: rest => if d = c then some rest else none
  | [] => none

def daysIn (year month : Nat) : Nat :=
  if month = 2 then
    if year % 4 = 0 ∧ (year % 100 ≠ 0 ∨ year % 400 = 0) then 29 else 28
  else if month = 4 ∨ month = 6 ∨ month = 9 ∨ month = 11 then 30
  else 31

def date? (cs : List Char) : Option (List Char) := do
  let (year, afterYear) ← dateField? 4 0 9999 cs
  let (month, afterMonth) ← dateField? 2 1 12 (← after? '-' afterYear)
  let (_, rest) ← dateField? 2 1 (daysIn year month) (← after? '-' afterMonth)
  return rest

/-- A second may be the sixtieth, for leap seconds. -/
def time? (cs : List Char) : Option (List Char) := do
  let (_, afterHour) ← dateField? 2 0 23 cs
  let (_, afterMinute) ← dateField? 2 0 59 (← after? ':' afterHour)
  let (_, afterSecond) ← dateField? 2 0 60 (← after? ':' afterMinute)
  match afterSecond with
  | '.' :: rest =>
    if rest.head?.any Char.isDigit then return rest.dropWhile Char.isDigit else return afterSecond
  | _ => return afterSecond

def offset? (cs : List Char) : Option (List Char) :=
  match cs with
  | 'Z' :: rest | 'z' :: rest => some rest
  | sign :: rest =>
    if Text.isSign sign then do
      let (_, afterHour) ← dateField? 2 0 23 rest
      let (_, after) ← dateField? 2 0 59 (← after? ':' afterHour)
      return after
    else none
  | [] => none

/-- The text after the time of a date, if it has one. A sign after the time has to begin an
offset. -/
def timeOfDate? (cs : List Char) : Option (List Char) :=
  match cs with
  | mark :: rest =>
    if mark == 'T' || mark == 't' || mark == ' ' then
      match time? rest with
      | some afterTime =>
        if afterTime.head?.any (fun c => Text.isSign c || c == 'Z' || c == 'z') then
          offset? afterTime
        else some afterTime
      | none => some cs
    else some cs
  | [] => some []

def moment? (cs : List Char) : Option (Value × List Char) := do
  let after ←
    match date? cs with
    | some afterDate => timeOfDate? afterDate
    | none => time? cs
  return (.moment (String.ofList (cs.take (cs.length - after.length))), after)

def number? (cs : List Char) : Option (Value × List Char) :=
  match moment? cs with
  | some found => some found
  | none =>
    match float? cs with
    | some found => some found
    | none => integer? cs

end LexicalReport.Toml
