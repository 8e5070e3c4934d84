import LexicalReport.Text.Pieces

/-! Paths as texts, and their parts. Parts are separated by slashes, and empty parts mean nothing; a
slash at the end asks for a directory. -/

namespace LexicalReport.Files

structure Path where
  absolute : Bool
  parts : List String
  /-- Whether a slash ends the path. -/
  closed : Bool
deriving DecidableEq, Repr

namespace Path

def partsOf (cs : List Char) : List String :=
  ((Text.pieces (· == '/') cs).filter (fun piece => !piece.isEmpty)).map String.ofList

def ofText (s : String) : Path where
  absolute := s.toList.head? = some '/'
  parts := partsOf s.toList
  closed := s.toList.getLast? = some '/'

def isEmpty (p : Path) : Bool :=
  !p.absolute && p.parts.isEmpty

/-- The parts without those dots that change nothing: all but one that begins a relative path. -/
def components (p : Path) : List String :=
  match p.parts with
  | [] => []
  | first :: rest =>
    let others := rest.filter (· != ".")
    if first = "." ∧ p.absolute then others else first :: others

def isHere (p : Path) : Bool :=
  !p.absolute && p.components == ["."]

def isDash (p : Path) : Bool :=
  !p.absolute && p.components == ["-"]

/-- The parts without dots at their end. A dot that begins a relative path counts as a part. -/
def dropDots (absolute : Bool) (parts : List String) : List String :=
  let trimmed := (parts.reverse.dropWhile (· == ".")).reverse
  if trimmed.isEmpty && !absolute then parts.take 1 else trimmed

def parent (p : Path) : Path where
  absolute := p.absolute
  parts := (dropDots p.absolute ((dropDots p.absolute p.parts).dropLast))
  closed := false

def join (base name : String) : String :=
  if base.isEmpty || base.toList.getLast? = some '/' then base ++ name else base ++ "/" ++ name

def ofPlace (names : List String) : String :=
  "/" ++ "/".intercalate names

def joinAll (base : String) (names : List String) : String :=
  names.foldl join base

/-- The part of a file name after its last dot, unless the dot begins the name. -/
def extension? (name : String) : Option String :=
  let fromEnd := name.toList.reverse
  match fromEnd.dropWhile (· != '.') with
  | '.' :: _ :: _ =>
    if name = ".." then none else some (String.ofList (fromEnd.takeWhile (· != '.')).reverse)
  | _ => none

end Path

end LexicalReport.Files
