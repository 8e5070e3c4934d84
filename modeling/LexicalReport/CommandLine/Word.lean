/-! The words of a command line by their form. Two dashes alone end the options; a word that begins
with two dashes names an option, with its value after an equals sign if it carries one; a word that
begins with one dash is a cluster of letters. A lone dash is an ordinary word. -/

namespace LexicalReport.CommandLine

inductive Word
  | endOfOptions
  | long (name : List Char) (value : Option (List Char))
  | cluster (letters : List Char)
  | plain
deriving DecidableEq, Repr

namespace Word

def attached? (cs : List Char) : Option (List Char) :=
  match cs.dropWhile (· != '=') with
  | _ :: value => some value
  | [] => none

def ofChars : List Char → Word
  | ['-', '-'] => endOfOptions
  | '-' :: '-' :: rest => long (rest.takeWhile (· != '=')) (attached? rest)
  | '-' :: c :: rest => cluster (c :: rest)
  | _ => plain

def ofText (s : String) : Word :=
  ofChars s.toList

end Word

def withoutFraction : List Char → List Char
  | '.' :: rest => rest.dropWhile Char.isDigit
  | cs => cs

/-- Whether letters after a dash are the digits of a number rather than a cluster. -/
def isUnsignedNumber (cs : List Char) : Bool :=
  cs.head?.any Char.isDigit &&
    match withoutFraction (cs.dropWhile Char.isDigit) with
    | [] => true
    | mark :: power => (mark == 'e' || mark == 'E') && !power.isEmpty && power.all Char.isDigit

end LexicalReport.CommandLine
