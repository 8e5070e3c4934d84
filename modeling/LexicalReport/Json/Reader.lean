import LexicalReport.Json.Basic
import LexicalReport.Text.Hexadecimal

/-! Reading JSON. The grammar is strict: no comments, no trailing commas, no leading zeros, and
nothing but blanks around the one value of a document. -/

namespace LexicalReport.Json.Reader

def isSpace (c : Char) : Bool :=
  c == ' ' || c == '\t' || c == '\n' || c == '\r'

def skipSpace (cs : List Char) : List Char :=
  cs.dropWhile isSpace

/-- One item of a string as it is written: a character, or a code unit given by its number. -/
inductive Piece
  | char (c : Char)
  | unit (n : Nat)

def shortEscape? : Char → Option Char
  | '"' => some '"'
  | '\\' => some '\\'
  | '/' => some '/'
  | 'b' => some '\x08'
  | 'f' => some '\x0c'
  | 'n' => some '\n'
  | 'r' => some '\r'
  | 't' => some '\t'
  | _ => none

def pieces? : List Char → Option (List Piece × List Char)
  | [] => none
  | '"' :: rest => some ([], rest)
  | '\\' :: 'u' :: a :: b :: c :: d :: rest => do
    let n ← Text.hexNumber? [a, b, c, d]
    let (ps, after) ← pieces? rest
    return (.unit n :: ps, after)
  | '\\' :: c :: rest => do
    let e ← shortEscape? c
    let (ps, after) ← pieces? rest
    return (.char e :: ps, after)
  | c :: rest =>
    if c.toNat < 0x20 then none
    else do
      let (ps, after) ← pieces? rest
      return (.char c :: ps, after)

def isHighHalf (n : Nat) : Bool :=
  0xd800 ≤ n && n ≤ 0xdbff

def isLowHalf (n : Nat) : Bool :=
  0xdc00 ≤ n && n ≤ 0xdfff

/-- The characters that the pieces spell. Two halves of a pair that follow each other make one
character, and a half that stands alone makes none. -/
def spelled? : List Piece → Option (List Char)
  | [] => some []
  | .char c :: rest => (spelled? rest).map (c :: ·)
  | .unit n :: rest =>
    if isHighHalf n then
      match rest with
      | .unit m :: more =>
        if isLowHalf m then
          (spelled? more).map (Char.ofNat (0x10000 + 0x400 * (n - 0xd800) + (m - 0xdc00)) :: ·)
        else none
      | _ => none
    else if isLowHalf n then none
    else (spelled? rest).map (Char.ofNat n :: ·)

def string? (cs : List Char) : Option (Option String × List Char) := do
  let (ps, after) ← pieces? cs
  return ((spelled? ps).map String.ofList, after)

def digits? (cs : List Char) : Option (List Char × List Char) :=
  match cs.takeWhile Char.isDigit with
  | [] => none
  | ds => some (ds, cs.dropWhile Char.isDigit)

def whole? : List Char → Option (List Char × List Char)
  | '0' :: rest => some (['0'], rest)
  | cs => digits? cs

def fraction? : List Char → Option (List Char × List Char)
  | '.' :: rest => (digits? rest).map (fun (ds, after) => ('.' :: ds, after))
  | cs => some ([], cs)

def exponent? : List Char → Option (List Char × List Char)
  | mark :: rest =>
    if mark == 'e' || mark == 'E' then
      match rest with
      | sign :: more =>
        if sign == '+' || sign == '-' then
          (digits? more).map (fun (ds, after) => (mark :: sign :: ds, after))
        else (digits? rest).map (fun (ds, after) => (mark :: ds, after))
      | [] => none
    else some ([], mark :: rest)
  | [] => some ([], [])

def unsigned? (cs : List Char) : Option (List Char × List Char) := do
  let (w, afterWhole) ← whole? cs
  let (f, afterFraction) ← fraction? afterWhole
  let (e, after) ← exponent? afterFraction
  return (w ++ f ++ e, after)

def signed? (cs : List Char) : Option (List Char × List Char) :=
  match cs with
  | '-' :: rest => (unsigned? rest).map (fun (n, after) => ('-' :: n, after))
  | _ => unsigned? cs

def number? (cs : List Char) : Option (Json × List Char) :=
  (signed? cs).map (fun (n, after) => (.number (String.ofList n), after))

mutual

/-- A value and the text after it. The first argument bounds the number of values that are read;
one more than the length of the text is always enough. -/
def value? : Nat → List Char → Option (Json × List Char)
  | 0, _ => none
  | fuel + 1, cs =>
    match skipSpace cs with
    | 'n' :: 'u' :: 'l' :: 'l' :: rest => some (.null, rest)
    | 't' :: 'r' :: 'u' :: 'e' :: rest => some (.bool true, rest)
    | 'f' :: 'a' :: 'l' :: 's' :: 'e' :: rest => some (.bool false, rest)
    | '"' :: rest => (string? rest).map (fun (text, after) => (.string text, after))
    | '[' :: rest =>
      match skipSpace rest with
      | ']' :: after => some (.array [], after)
      | _ => (items? fuel rest).map (fun (items, after) => (.array items, after))
    | '{' :: rest =>
      match skipSpace rest with
      | '}' :: after => some (.object [], after)
      | _ => (members? fuel rest).map (fun (members, after) => (.object members, after))
    | other => number? other

def items? : Nat → List Char → Option (List Json × List Char)
  | 0, _ => none
  | fuel + 1, cs =>
    match value? fuel cs with
    | none => none
    | some (item, rest) =>
      match skipSpace rest with
      | ',' :: more => (items? fuel more).map (fun (items, after) => (item :: items, after))
      | ']' :: after => some ([item], after)
      | _ => none

def members? : Nat → List Char → Option (List (Option String × Json) × List Char)
  | 0, _ => none
  | fuel + 1, cs =>
    match skipSpace cs with
    | '"' :: afterQuote =>
      match string? afterQuote with
      | none => none
      | some (name, afterName) =>
        match skipSpace afterName with
        | ':' :: afterColon =>
          match value? fuel afterColon with
          | none => none
          | some (item, rest) =>
            match skipSpace rest with
            | ',' :: more =>
              (members? fuel more).map (fun (members, after) => ((name, item) :: members, after))
            | '}' :: after => some ([(name, item)], after)
            | _ => none
        | _ => none
    | _ => none

end

end LexicalReport.Json.Reader

namespace LexicalReport.Json

def read? (s : String) : Option Json :=
  let cs := s.toList
  match Reader.value? (cs.length + 1) cs with
  | some (value, rest) => if (Reader.skipSpace rest).isEmpty then some value else none
  | none => none

end LexicalReport.Json
