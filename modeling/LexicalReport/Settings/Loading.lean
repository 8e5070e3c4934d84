import LexicalReport.Files.Operations
import LexicalReport.Settings.Decoding
import LexicalReport.Settings.Environment

/-! Settings files. The settings of a run are the defaults under the layers of the files that exist,
the later ones over the earlier, and under the layer of the environment. -/

namespace LexicalReport.Settings

open Files (FileSystem Path)

inductive Failure
  | unreadable (path : String) (cause : Files.Failure)
  | unparsable (path : String)
deriving DecidableEq, Repr

namespace Failure

def message : Failure → String
  | unreadable path cause => "failed to read config file " ++ path ++ ": " ++ cause.message
  | unparsable path => "failed to parse config file " ++ path

def trail (failure : Failure) : List String :=
  match failure with
  | unreadable _ cause => [failure.message, cause.message]
  | unparsable _ => [failure.message]

end Failure

def localName : String := ".golex.toml"

def globalNames : List String := ["golex", "config.toml"]

def globalPath (configHome : String) : String :=
  Path.joinAll configHome globalNames

def localPath (workDirectory : String) : String :=
  Path.join workDirectory localName

def readLayer (fs : FileSystem) (path : String) : Except Failure Layer :=
  match fs.readText path with
  | .error cause => .error (.unreadable path cause)
  | .ok text =>
    match Layer.read? text with
    | some layer => .ok layer
    | none => .error (.unparsable path)

def readLayers (fs : FileSystem) (paths : List String) : Except Failure (List Layer) :=
  (paths.filter fs.exists?).mapM (readLayer fs)

/-- The settings of a run, from files in the order of their weight and the environment. -/
def load (fs : FileSystem) (paths : List String) (env : Environment) :
    Except Failure Settings := do
  let layers ← readLayers fs paths
  return (layers.foldl merge {}).merge env.layer

end LexicalReport.Settings
