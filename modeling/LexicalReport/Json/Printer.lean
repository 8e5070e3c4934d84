import LexicalReport.Json.Basic

/-! Printing JSON with one member or item on a line, each level two blanks further in. Quotes,
backslashes and control characters are escaped, and every other character stands for itself. -/

namespace LexicalReport.Json.Printer

def hexDigit (n : Nat) : Char :=
  if n < 10 then Char.ofNat ('0'.toNat + n) else Char.ofNat ('a'.toNat + (n - 10))

def unicodeEscape (n : Nat) : List Char :=
  ['\\', 'u', '0', '0', hexDigit (n / 16), hexDigit (n % 16)]

def escaped (c : Char) : List Char :=
  if c = '"' then ['\\', '"']
  else if c = '\\' then ['\\', '\\']
  else if c = '\x08' then ['\\', 'b']
  else if c = '\x0c' then ['\\', 'f']
  else if c = '\n' then ['\\', 'n']
  else if c = '\r' then ['\\', 'r']
  else if c = '\t' then ['\\', 't']
  else if c.toNat < 0x20 then unicodeEscape c.toNat
  else [c]

/-- A quoted text. One that has no characters to show stands empty. -/
def quoted (text : Option String) : List Char :=
  '"' :: (text.getD "").toList.flatMap escaped ++ ['"']

def newLine (depth : Nat) : List Char :=
  '\n' :: List.replicate (2 * depth) ' '

mutual

def value (depth : Nat) : Json → List Char
  | .null => ['n', 'u', 'l', 'l']
  | .bool true => ['t', 'r', 'u', 'e']
  | .bool false => ['f', 'a', 'l', 's', 'e']
  | .number literal => literal.toList
  | .string text => quoted text
  | .array [] => ['[', ']']
  | .array (item :: items) =>
    '[' :: newLine (depth + 1) ++ value (depth + 1) item ++ moreItems depth items
  | .object [] => ['{', '}']
  | .object ((name, item) :: members) =>
    '{' :: newLine (depth + 1) ++ quoted name ++ [':', ' '] ++ value (depth + 1) item ++
      moreMembers depth members

def moreItems (depth : Nat) : List Json → List Char
  | [] => newLine depth ++ [']']
  | item :: items =>
    ',' :: newLine (depth + 1) ++ value (depth + 1) item ++ moreItems depth items

def moreMembers (depth : Nat) : List (Option String × Json) → List Char
  | [] => newLine depth ++ ['}']
  | (name, item) :: members =>
    ',' :: newLine (depth + 1) ++ quoted name ++ [':', ' '] ++ value (depth + 1) item ++
      moreMembers depth members

end

end LexicalReport.Json.Printer

namespace LexicalReport.Json

def print (json : Json) : String :=
  String.ofList (Printer.value 0 json)

end LexicalReport.Json
