import LexicalReport.CommandLine.Basic
import LexicalReport.Log.User
import LexicalReport.Log.Writing
import LexicalReport.Run.Basic
import LexicalReport.Source.Collection

/-! The run that reports on sources. It loads the settings and analyzes all sources before anything
is shown; then it shows the reports, writes the log, and last of all looks at the number of
errors. -/

namespace LexicalReport.Run

open CommandLine (LexRequest)

/-- What a run is to do: the settings, with the options of the command line over them. -/
structure Plan where
  format : Report.Format
  writesLog : Bool
  logDirectory : String
  user : Option String
  failsOnError : Bool
deriving DecidableEq, Repr

def Plan.ofRequest (request : LexRequest) (settings : Settings) : Plan where
  format := request.format.getD settings.output.format
  writesLog := !request.noLog && settings.log.enabled
  logDirectory := request.logDirectory.getD settings.log.directory
  user := request.user.or settings.log.user
  failsOnError := request.failOnError || settings.output.failOnError

def conclude (plan : Plan) (reports : List Report) (output : String) (files : Files.FileSystem)
    (logPath : Option String) : Outcome :=
  let errors := (Totals.ofReports reports).errors
  if plan.failsOnError && 0 < errors then
    ⟨1, output, some ["found " ++ toString errors ++ " lexical error(s)"], logPath, files⟩
  else ⟨0, output, none, logPath, files⟩

def publish (world : World) (plan : Plan) (reports : List Report) : Outcome :=
  let output := plan.format.render world.color reports
  if plan.writesLog && !reports.isEmpty then
    let user := Log.resolveUser plan.user world.versionControlUser
    match Log.write world.files reports plan.logDirectory user world.now with
    | (files, .ok path) => conclude plan reports output files (some path)
    | (files, .error failure) =>
      ⟨1, output, some ("failed to write analysis log" :: failure.trail), none, files⟩
  else conclude plan reports output world.files none

def plan (world : World) (request : LexRequest) : Except Settings.Failure Plan :=
  (Settings.load world.files world.settingsPaths world.environment).map (Plan.ofRequest request)

def lex (world : World) (request : LexRequest) : Outcome :=
  match plan world request with
  | .error failure => .refused world ("failed to load configuration" :: failure.trail)
  | .ok made =>
    match Source.reports world.files request.path with
    | .error failure => .refused world (("failed to analyze " ++ request.path) :: failure.trail)
    | .ok reports => publish world made reports

end LexicalReport.Run
