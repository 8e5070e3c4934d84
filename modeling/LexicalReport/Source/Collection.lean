import LexicalReport.Ignore.Listing
import LexicalReport.Source.Basic

/-! The sources that a path stands for. A file stands for itself; a directory stands for the source
files listed below it, in the order of their paths, part by part. -/

namespace LexicalReport.Source

open Files (FileSystem Path)

def extension : String := "go"

def isSource (entry : Ignore.Entry) : Bool :=
  entry.isFile && entry.names.getLast?.bind Path.extension? == some extension

/-- The order of paths: part by part, each part by its characters. -/
def precedes : List String → List String → Bool
  | [], _ => true
  | _ :: _, [] => false
  | a :: first, b :: second => decide (a < b) || (a == b && precedes first second)

def select (entries : List Ignore.Entry) : List (List String) :=
  ((entries.filter isSource).map Ignore.Entry.names).mergeSort precedes

/-- The sources of a path, by a listing of what is below a directory. -/
def collectBy (listing : FileSystem → String → List Ignore.Entry) (fs : FileSystem)
    (path : String) : Except Failure (List String) :=
  if !fs.exists? path then .error (.notFound path)
  else if fs.isFile path then .ok [path]
  else .ok ((select (listing fs path)).map (Path.joinAll path))

def collect (fs : FileSystem) (path : String) : Except Failure (List String) :=
  collectBy Ignore.listing fs path

def reportsBy (listing : FileSystem → String → List Ignore.Entry) (fs : FileSystem)
    (path : String) : Except Failure (List Report) := do
  (← collectBy listing fs path).mapM (report fs)

def reports (fs : FileSystem) (path : String) : Except Failure (List Report) :=
  reportsBy Ignore.listing fs path

end LexicalReport.Source
