import LexicalReport.Ignore.Level

/-! The entries below a directory that are neither hidden nor ignored. A directory that is left out
is not entered, so nothing below it is listed either. -/

namespace LexicalReport.Ignore

open Files (Entries Node FileSystem)

structure Entry where
  names : List String
  isFile : Bool
deriving DecidableEq, Repr

mutual

def listNode (root : Root) (levels : List Level) (path : String) (names : List String) :
    Node → List Entry
  | .file _ => [⟨names, true⟩]
  | .directory entries =>
    ⟨names, false⟩ ::
      listEntries root (.ofEntries false path.toList entries :: levels) path names entries

def listEntries (root : Root) (levels : List Level) (path : String) (names : List String) :
    List (String × Node) → List Entry
  | [] => []
  | (name, node) :: rest =>
    let inner := Files.Path.join path name
    (if root.shows levels inner name node.isDirectory then
      listNode root levels inner (names ++ [name]) node
    else []) ++ listEntries root levels path names rest

end

/-- What is shown of a directory whose path exists. A path that is a lone dash names no
directory. -/
def listing (fs : FileSystem) (path : String) : List Entry :=
  match fs.place path with
  | .error _ => []
  | .ok place =>
    match fs.node? place with
    | some (.directory entries) =>
      if (Files.Path.ofText path).isDash then []
      else
        let level := Level.ofEntries false path.toList entries
        listEntries ⟨path, place⟩ (level :: levelsAbove fs place) path [] entries
    | _ => []

end LexicalReport.Ignore
