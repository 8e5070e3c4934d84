import LexicalReport.Files.Basic

/-! Operations on a file system. A path is followed part by part, and every part before the last has
to be a directory. An operation that fails half way may have made directories, so it gives back
the file system in any case. -/

namespace LexicalReport.Files.FileSystem

def nameLimit : Nat := 255

def pathLimit : Nat := 4095

def node? (fs : FileSystem) (place : List String) : Option Node :=
  fs.root.at? place

def entriesOf (fs : FileSystem) (place : List String) : Except Failure Entries :=
  match fs.node? place with
  | some (.directory entries) => .ok entries
  | some (.file _) => .error .notDirectory
  | none => .error .notFound

def follow (fs : FileSystem) : List String → List String → Except Failure (List String)
  | place, [] => .ok place
  | place, part :: rest => do
    let entries ← fs.entriesOf place
    if part = "." then fs.follow place rest
    else if part = ".." then fs.follow place.dropLast rest
    else if nameLimit < part.utf8ByteSize then .error .nameTooLong
    else if (entries.find? part).isSome then fs.follow (place ++ [part]) rest
    else .error .notFound

def start (fs : FileSystem) (path : Path) : List String :=
  if path.absolute then [] else fs.workDir

def path (s : String) : Except Failure Path :=
  if s.toList.any (· == '\x00') then .error .nulInName
  else if s.isEmpty then .error .notFound
  else if pathLimit < s.utf8ByteSize then .error .nameTooLong
  else .ok (.ofText s)

def placeOf (fs : FileSystem) (p : Path) : Except Failure (List String) :=
  fs.follow (fs.start p) (p.parts ++ if p.closed then ["."] else [])

def place (fs : FileSystem) (s : String) : Except Failure (List String) := do
  fs.placeOf (← path s)

def node (fs : FileSystem) (s : String) : Except Failure Node := do
  match fs.node? (← fs.place s) with
  | some found => .ok found
  | none => .error .notFound

def exists? (fs : FileSystem) (s : String) : Bool :=
  (fs.node s).isOk

def isFile (fs : FileSystem) (s : String) : Bool :=
  match fs.node s with
  | .ok (.file _) => true
  | _ => false

def isDirectoryAt (fs : FileSystem) (p : Path) : Bool :=
  match fs.placeOf p with
  | .ok place => (fs.entriesOf place).isOk
  | .error _ => false

def readBytes (fs : FileSystem) (s : String) : Except Failure ByteArray := do
  match ← fs.node s with
  | .file content => .ok content
  | .directory _ => .error .isDirectory

def readText (fs : FileSystem) (s : String) : Except Failure String := do
  match String.fromUTF8? (← fs.readBytes s) with
  | some text => .ok text
  | none => .error .invalidText

def parentPlace (fs : FileSystem) (p : Path) : Except Failure (List String × Entries) := do
  let place ← fs.follow (fs.start p) p.parts.dropLast
  return (place, ← fs.entriesOf place)

def makeDirectory (fs : FileSystem) (p : Path) : Except Failure FileSystem := do
  match p.parts.getLast? with
  | none => .error .alreadyExists
  | some name =>
    let (place, entries) ← fs.parentPlace p
    if name = "." ∨ name = ".." then .error .alreadyExists
    else if nameLimit < name.utf8ByteSize then .error .nameTooLong
    else if (entries.find? name).isSome then .error .alreadyExists
    else return { fs with root := fs.root.putAt (.directory []) (place ++ [name]) }

/-- Make a directory and the missing ones on the way to it, by trying ever shorter paths. -/
def makeMissing : Nat → FileSystem → Path → FileSystem × Except Failure Unit
  | 0, fs, _ => (fs, .ok ())
  | fuel + 1, fs, p =>
    if p.isEmpty then (fs, .ok ())
    else match fs.makeDirectory p with
      | .ok made => (made, .ok ())
      | .error .notFound =>
        match makeMissing fuel fs p.parent with
        | (above, .error e) => (above, .error e)
        | (above, .ok ()) =>
          match above.makeDirectory p with
          | .ok made => (made, .ok ())
          | .error e => (above, if above.isDirectoryAt p then .ok () else .error e)
      | .error e => (fs, if fs.isDirectoryAt p then .ok () else .error e)

/-- Make a directory and its parents unless they exist. The empty path is the working directory. -/
def makeDirectories (fs : FileSystem) (s : String) : FileSystem × Except Failure Unit :=
  if s.isEmpty then (fs, .ok ())
  else match path s with
    | .error e => (fs, .error e)
    | .ok p => makeMissing (p.parts.length + 1) fs p

def writeBytes (fs : FileSystem) (s : String) (content : ByteArray) :
    Except Failure FileSystem := do
  let p ← path s
  match p.parts.getLast? with
  | none => .error .isDirectory
  | some name =>
    let (place, entries) ← fs.parentPlace p
    if name = "." ∨ name = ".." ∨ p.closed then .error .isDirectory
    else if nameLimit < name.utf8ByteSize then .error .nameTooLong
    else match entries.find? name with
      | some (.directory _) => .error .isDirectory
      | _ => return { fs with root := fs.root.putAt (.file content) (place ++ [name]) }

def writeText (fs : FileSystem) (s : String) (text : String) : Except Failure FileSystem :=
  fs.writeBytes s text.toUTF8

end LexicalReport.Files.FileSystem
