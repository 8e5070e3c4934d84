import LexicalReport.Text.Hexadecimal

/-! The characters, strings and keys of TOML. Readers take a text and give what they have read with
the text after it. -/

namespace LexicalReport.Toml

def isSpace (c : Char) : Bool :=
  c == ' ' || c == '\t'

def skipSpace (cs : List Char) : List Char :=
  cs.dropWhile isSpace

/-- Characters that may stand in comments: all but control characters, of which the tab is
allowed. -/
def isPrintable (c : Char) : Bool :=
  c == '\t' || (' ' ≤ c && c != '\x7f')

/-- The text after a line end. A carriage return alone is none. -/
def lineFeed? : List Char → Option (List Char)
  | '\n' :: rest => some rest
  | '\r' :: '\n' :: rest => some rest
  | _ => none

def skipComment : List Char → List Char
  | '#' :: rest => rest.dropWhile isPrintable
  | cs => cs

def lineEnd? (cs : List Char) : Option (List Char) :=
  match skipComment (skipSpace cs) with
  | [] => some []
  | rest => lineFeed? rest

def skipLines : Nat → List Char → Option (List Char)
  | 0, _ => none
  | fuel + 1, cs =>
    match skipSpace cs with
    | '#' :: rest => (lineFeed? (rest.dropWhile isPrintable)).bind (skipLines fuel)
    | '\n' :: rest => skipLines fuel rest
    | '\r' :: rest => (lineFeed? ('\r' :: rest)).bind (skipLines fuel)
    | rest => some rest

def charOfHex? (digits : List Char) : Option Char := do
  let n ← Text.hexNumber? digits
  if n.isValidChar then some (Char.ofNat n) else none

def shortEscape? : Char → Option Char
  | '"' => some '"'
  | '\\' => some '\\'
  | 'b' => some '\x08'
  | 'f' => some '\x0c'
  | 'n' => some '\n'
  | 'r' => some '\r'
  | 't' => some '\t'
  | _ => none

def escape? : List Char → Option (Char × List Char)
  | 'u' :: a :: b :: c :: d :: rest => (charOfHex? [a, b, c, d]).map (·, rest)
  | 'U' :: a :: b :: c :: d :: e :: f :: g :: h :: rest =>
    (charOfHex? [a, b, c, d, e, f, g, h]).map (·, rest)
  | c :: rest => (shortEscape? c).map (·, rest)
  | [] => none

def basicString? : Nat → List Char → Option (List Char × List Char)
  | 0, _ => none
  | fuel + 1, cs =>
    match cs with
    | [] => none
    | '"' :: rest => some ([], rest)
    | '\\' :: rest => do
      let (c, afterEscape) ← escape? rest
      let (text, after) ← basicString? fuel afterEscape
      return (c :: text, after)
    | c :: rest =>
      if isPrintable c then do
        let (text, after) ← basicString? fuel rest
        return (c :: text, after)
      else none

def literalString? (cs : List Char) : Option (List Char × List Char) :=
  let isInside (c : Char) : Bool := isPrintable c && c != '\''
  match cs.dropWhile isInside with
  | '\'' :: after => some (cs.takeWhile isInside, after)
  | _ => none

/-- The end of a string between triple quotes. Up to two quotes before the closing ones belong to
the string. -/
def tripleQuoteEnd? (quote : Char) (cs : List Char) : Option (List Char × List Char) :=
  let run := (cs.take 5).takeWhile (· == quote)
  if 3 ≤ run.length then some (run.drop 3, cs.drop run.length) else none

def continuedLine? (cs : List Char) : Option (List Char) :=
  (lineFeed? (skipSpace cs)).map
    (fun rest => skipFeeds (rest.length + 1) rest)
where
  skipFeeds : Nat → List Char → List Char
    | 0, cs => cs
    | fuel + 1, cs =>
      match lineFeed? (skipSpace cs) with
      | some rest => skipFeeds fuel rest
      | none => skipSpace cs

def multiLineString? (quote : Char) (escapes : Bool) :
    Nat → List Char → Option (List Char × List Char)
  | 0, _ => none
  | fuel + 1, cs =>
    match tripleQuoteEnd? quote cs with
    | some found => some found
    | none =>
      match lineFeed? cs with
      | some rest => do
        let (text, after) ← multiLineString? quote escapes fuel rest
        return ('\n' :: text, after)
      | none =>
        match cs with
        | [] => none
        | c :: rest =>
          if escapes && c == '\\' then
            match continuedLine? rest with
            | some afterBreak => multiLineString? quote escapes fuel afterBreak
            | none => do
              let (e, afterEscape) ← escape? rest
              let (text, after) ← multiLineString? quote escapes fuel afterEscape
              return (e :: text, after)
          else if isPrintable c then do
            let (text, after) ← multiLineString? quote escapes fuel rest
            return (c :: text, after)
          else none

def skipFirstFeed (cs : List Char) : List Char :=
  (lineFeed? cs).getD cs

def string? (cs : List Char) : Option (List Char × List Char) :=
  match cs with
  | '"' :: '"' :: '"' :: rest => multiLineString? '"' true (rest.length + 1) (skipFirstFeed rest)
  | '"' :: rest => basicString? (rest.length + 1) rest
  | '\'' :: '\'' :: '\'' :: rest =>
    multiLineString? '\'' false (rest.length + 1) (skipFirstFeed rest)
  | '\'' :: rest => literalString? rest
  | _ => none

def isBareKey (c : Char) : Bool :=
  c.isAlphanum || c == '_' || c == '-'

def simpleKey? (cs : List Char) : Option (List Char × List Char) :=
  match cs with
  | '"' :: rest => basicString? (rest.length + 1) rest
  | '\'' :: rest => literalString? rest
  | _ =>
    match cs.takeWhile isBareKey with
    | [] => none
    | name => some (name, cs.dropWhile isBareKey)

def keyParts? : Nat → List Char → Option (List String × List Char)
  | 0, _ => none
  | fuel + 1, cs => do
    let (part, afterPart) ← simpleKey? (skipSpace cs)
    match skipSpace afterPart with
    | '.' :: rest => do
      let (parts, after) ← keyParts? fuel rest
      return (String.ofList part :: parts, after)
    | after => return ([String.ofList part], after)

/-- Keys and nested values may be this deep, less one. -/
def depthLimit : Nat := 80

def key? (cs : List Char) : Option (List String × List Char) := do
  let (parts, after) ← keyParts? (cs.length + 1) cs
  if parts.length < depthLimit then some (parts, after) else none

end LexicalReport.Toml
