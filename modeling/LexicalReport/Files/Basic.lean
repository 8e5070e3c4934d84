import LexicalReport.Files.Path

/-! A file system as a value: a tree of directories with files of bytes at its leaves, and the place
of the working directory. A place is the list of names that leads to it from the root. -/

namespace LexicalReport.Files

inductive Node
  | file (content : ByteArray)
  | directory (entries : List (String × Node))

abbrev Entries := List (String × Node)

def Node.isDirectory : Node → Bool
  | .file _ => false
  | .directory _ => true

inductive Failure
  | notFound
  | alreadyExists
  | notDirectory
  | isDirectory
  | nameTooLong
  | nulInName
  | invalidText
deriving DecidableEq, Repr

def Failure.message : Failure → String
  | notFound => "No such file or directory (os error 2)"
  | alreadyExists => "File exists (os error 17)"
  | notDirectory => "Not a directory (os error 20)"
  | isDirectory => "Is a directory (os error 21)"
  | nameTooLong => "File name too long (os error 36)"
  | nulInName => "file name contained an unexpected NUL byte"
  | invalidText => "stream did not contain valid UTF-8"

namespace Entries

def find? (entries : Entries) (name : String) : Option Node :=
  (List.find? (fun entry => entry.1 == name) entries).map Prod.snd

def put (name : String) (node : Node) : Entries → Entries
  | [] => [(name, node)]
  | entry :: rest => if entry.1 = name then (name, node) :: rest else entry :: put name node rest

def at? (entries : Entries) : List String → Option Node
  | [] => some (.directory entries)
  | name :: rest =>
    match entries.find? name with
    | some (.directory inner) => at? inner rest
    | some (.file content) => if rest.isEmpty then some (.file content) else none
    | none => none

def putAt (node : Node) : List String → Entries → Entries
  | [], entries => entries
  | [name], entries => entries.put name node
  | name :: rest, entries =>
    match entries.find? name with
    | some (.directory inner) => entries.put name (.directory (putAt node rest inner))
    | _ => entries

end Entries

structure FileSystem where
  root : Entries
  workDir : List String

end LexicalReport.Files
