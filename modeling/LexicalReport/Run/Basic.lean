import LexicalReport.Files.Operations
import LexicalReport.Log.Moment
import LexicalReport.Report.Style
import LexicalReport.Settings.Loading

/-! The surroundings of a run, and what a run leaves behind. -/

namespace LexicalReport.Run

open Files (FileSystem Path)

structure World where
  files : FileSystem
  configHome : Option String
  environment : Environment
  versionControlUser : Option String
  now : Log.Moment
  isTerminal : Bool
  /-- The platform that the program was built for. -/
  target : String

namespace World

def color (world : World) : Bool :=
  Style.wanted world.environment world.isTerminal

/-- The settings files of a run, those of the working directory last. -/
def settingsPaths (world : World) : List String :=
  (world.configHome.map Settings.globalPath).toList ++
    [Settings.localPath (Path.ofPlace world.files.workDir)]

end World

structure Outcome where
  exitCode : UInt32
  output : String
  /-- The messages of a failure, from the outermost to its cause. -/
  failure : Option (List String)
  logPath : Option String
  files : FileSystem

namespace Outcome

def success (world : World) (output : String) : Outcome :=
  ⟨0, output, none, none, world.files⟩

def refused (world : World) (trail : List String) : Outcome :=
  ⟨1, "", some trail, none, world.files⟩

def errorText (outcome : Outcome) : Option String :=
  outcome.failure.map (fun trail => "Error: " ++ ": ".intercalate trail)

end Outcome

end LexicalReport.Run
