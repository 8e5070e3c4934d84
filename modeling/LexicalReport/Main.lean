import LexicalReport.Run.Program
import Std.Time.Zoned

/-! The program. It gathers the surroundings of a run, lets the library decide, and carries out what
the outcome says. Only what a run may look into is read: the sources, the files that say what is
to be ignored around them, the settings, and whether there is a directory for the log. -/

namespace LexicalReport.Main

open Files (Entries Node FileSystem Path)

def variableNames : List String := [
  Environment.logDirectory, Environment.noLog, Environment.user, Environment.format,
  "CLICOLOR_FORCE", "NO_COLOR", "CLICOLOR"]

def readEnvironment : IO Environment := do
  let values ← variableNames.mapM (fun name => do return (name, ← IO.getEnv name))
  return fun name => (values.find? (fun entry => entry.1 == name)).bind Prod.snd

def findConfigHome : IO (Option String) := do
  let home := (← IO.getEnv "HOME").map (Path.join · ".config")
  match ← IO.getEnv "XDG_CONFIG_HOME" with
  | some path => return if path.startsWith "/" then some path else home
  | none => return home

def graft (node : Node) : List String → Entries → Entries
  | [], entries => entries
  | [name], entries => entries.put name node
  | name :: rest, entries =>
    match entries.find? name with
    | some (.directory inner) => entries.put name (.directory (graft node rest inner))
    | _ => entries.put name (.directory (graft node rest []))

def isRead (name : String) : Bool :=
  Path.extension? name == some Source.extension ||
    [".ignore", ".gitignore", "exclude"].contains name

/-- Read a directory with all that is below it, or a file. Of a file that is not wanted the name is
enough. -/
partial def readNode (path : String) (wanted : Bool) : IO Node := do
  let there := (← IO.currentDir) / path
  if ← there.isDir then
    let found ← try there.readDir catch _ => pure #[]
    let entries ← found.toList.mapM (fun entry => do
      return (entry.fileName, ← readNode (Path.join path entry.fileName) (isRead entry.fileName)))
    return .directory entries
  else if wanted then return .file (← IO.FS.readBinFile there)
  else return .file .empty

def findPlace (path : String) : IO (Option (List String)) := do
  let there := (← IO.currentDir) / path
  if ← there.pathExists then
    return some (Path.ofText (← IO.FS.realPath there).toString).parts
  else return none

def load (files : FileSystem) (path : String) : IO FileSystem := do
  match ← findPlace path with
  | some place => return { files with root := graft (← readNode path true) place files.root }
  | none => return files

def loadAll (files : FileSystem) (paths : List String) : IO FileSystem :=
  paths.foldlM load files

/-- Note of a path whether it is a directory or a file, unless it is known already. -/
def outline (files : FileSystem) (path : String) : IO FileSystem := do
  match ← findPlace path with
  | none => return files
  | some place =>
    if (files.node? place).isSome then return files
    else
      let node := if ← ((← IO.currentDir) / path).isDir then Node.directory [] else .file .empty
      return { files with root := graft node place files.root }

def beginnings (path : String) : List String :=
  let parsed := Path.ofText path
  let start := if parsed.absolute then "/" else ""
  (List.range parsed.parts.length).map (fun n =>
    start ++ "/".intercalate (parsed.parts.take (n + 1)))

def ignoreNames : List String := [".git/HEAD", ".git/info/exclude", ".gitignore", ".ignore"]

def loadRequested (files : FileSystem) (path : String) : IO FileSystem := do
  match ← findPlace path with
  | none => return files
  | some place =>
    let above := (List.range place.length).map (fun n => Path.ofPlace (place.take n))
    load (← loadAll files (above.flatMap (fun p => ignoreNames.map (Path.join p)))) path

def readMoment : IO Log.Moment := do
  let now ← Std.Time.PlainDateTime.now
  return ⟨now.date.year.toInt, now.date.month.val.toNat, now.date.day.val.toNat,
    now.time.hour.val.toNat, now.time.minute.val.toNat, now.time.second.val.toNat,
    now.time.nanosecond.val.toNat⟩

def readSurroundings : IO Run.World := do
  let workDir := (Path.ofText (← IO.currentDir).toString).parts
  return {
    files := ← outline ⟨[], workDir⟩ "."
    configHome := ← findConfigHome
    environment := ← readEnvironment
    versionControlUser := none
    now := ← readMoment
    isTerminal := ← (← IO.getStdout).isTty
    target := "native" }

def readWorld (words : List String) : IO Run.World := do
  let bare ← readSurroundings
  match CommandLine.read words with
  | .ok ⟨_, .lex request⟩ => do
    let files ← loadAll (← loadRequested bare.files request.path) bare.settingsPaths
    let world := { bare with files }
    match Run.plan world request with
    | .ok plan => do
      return { world with files := ← (beginnings plan.logDirectory).foldlM outline files }
    | .error _ => return world
  | _ => return bare

/-- Carry out the one change that a run may make: a log is written. -/
def writeLog (outcome : Run.Outcome) (path : String) : IO Unit := do
  match outcome.files.readBytes path with
  | .error _ => pure ()
  | .ok content => do
    let there := (← IO.currentDir) / path
    match there.parent with
    | some directory => IO.FS.createDirAll directory
    | none => pure ()
    IO.FS.writeBinFile there content
    IO.eprintln ("\nLog written: " ++ path)

def reportMistake (words : List String) : IO Unit := do
  match CommandLine.read words with
  | .error r => if r.exitCode != 0 then IO.eprintln ("error: " ++ r.message)
  | .ok _ => pure ()

def run (words : List String) : IO UInt32 := do
  let outcome := Run.program (← readWorld words) words
  reportMistake words
  IO.print outcome.output
  match outcome.logPath with
  | some path => writeLog outcome path
  | none => pure ()
  match outcome.errorText with
  | some text => IO.eprintln text
  | none => pure ()
  return outcome.exitCode

end LexicalReport.Main

def main (words : List String) : IO UInt32 :=
  LexicalReport.Main.run words
