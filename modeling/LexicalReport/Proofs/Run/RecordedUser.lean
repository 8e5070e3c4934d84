import LexicalReport.Proofs.Log.User
import LexicalReport.Proofs.Run.Flags

/-! The user that a run records. It is the first usable one of the user that the command line gives,
the one of the settings and the one that version control knows, and else the fallback. But a user
on the command line of which nothing is left still keeps the one of the settings from being heard,
and then it is the next one that is recorded. -/

namespace LexicalReport.Run

open CommandLine (LexRequest)
open Files (FileSystem Path)

structure Records (world : World) (request : LexRequest) (settings : Settings)
    (reports : List Report) (o : Outcome) (user : String) : Prop where
  path : o.logPath = some (Path.join (request.logDirectory.getD settings.log.directory)
    (Log.fileName user world.now))
  text : o.files.readText (Path.join (request.logDirectory.getD settings.log.directory)
    (Log.fileName user world.now)) = .ok (Log.text reports user world.now)

/-- A user is given of which nothing is left, and another one that is usable is configured. -/
structure Hides (given configured : Option String) : Prop where
  present : given ≠ none
  blank : Log.usable? given = none
  usable : Log.usable? configured ≠ none

section Choice

variable {given configured : Option String} {others : List (Option String)}

theorem firstUsable_or (heard : ¬ Hides given configured) :
    Log.firstUsable (given.or configured :: others) =
      Log.firstUsable (given :: configured :: others) := by
  rw [Log.firstUsable_cons, Log.firstUsable_cons, Log.firstUsable_cons]
  cases given with
  | none => rfl
  | some raw =>
    rw [Option.some_or]
    cases left : Log.usable? (some raw) with
    | some user => rfl
    | none =>
      have unusable : Log.usable? configured = none := by
        by_contra usable
        exact heard ⟨by simp, left, usable⟩
      rw [unusable]
      rfl

theorem firstUsable_or_of_hides (hides : Hides given configured) :
    Log.firstUsable (given.or configured :: others) = Log.firstUsable others := by
  cases given with
  | none => exact absurd rfl hides.present
  | some raw =>
    rw [Option.some_or, Log.firstUsable_cons, hides.blank]
    rfl

end Choice

section Runs

variable {world : World} {words : List String} {verbose : Bool} {request : LexRequest}
  {settings : Settings} {reports : List Report}

theorem tryLog_of_logPath (plan : Plan)
    (logged : (publish world plan reports).logPath.isSome = true) :
    ∃ path, (publish world plan reports).logPath = some path ∧
      tryLog world reports plan.logDirectory plan.user =
        ((publish world plan reports).files, .ok path) := by
  obtain ⟨-, same⟩ | ⟨-, ⟨files, path, tried, same⟩ | ⟨files, failure, -, same⟩⟩ :=
    publish_cases world plan reports
  · simp [same] at logged
  · exact ⟨path, by rw [same, conclude_logPath], by rw [same, conclude_files, tried]⟩
  · simp [same] at logged

theorem records_resolved (parsed : CommandLine.read words = .ok ⟨verbose, .lex request⟩)
    (loaded : Settings.load world.files world.settingsPaths world.environment = .ok settings)
    (analyzed : Source.reports world.files request.path = .ok reports)
    (logged : (program world words).logPath.isSome = true) :
    Records world request settings reports (program world words)
      (Log.firstUsable [request.user.or settings.log.user, world.versionControlUser]) := by
  have run : program world words = publish world (.ofRequest request settings) reports := by
    simp only [program, parsed, command, lex, plan, loaded, analyzed, Except.map]
  rw [run] at logged ⊢
  obtain ⟨path, told, tried⟩ := tryLog_of_logPath _ logged
  rw [← Log.resolveUser_eq]
  obtain ⟨rfl, log, written⟩ := Log.written_of_ok tried
  exact ⟨told, written.reads⟩

/-- A run that tells of a log has written it for the first usable one of the three users, and else
for the fallback, unless the user on the command line hides the one of the settings; then neither
of the two is heard. -/
theorem program_records (parsed : CommandLine.read words = .ok ⟨verbose, .lex request⟩)
    (loaded : Settings.load world.files world.settingsPaths world.environment = .ok settings)
    (analyzed : Source.reports world.files request.path = .ok reports)
    (logged : (program world words).logPath.isSome = true) :
    (¬ Hides request.user settings.log.user →
      Records world request settings reports (program world words)
        (Log.firstUsable [request.user, settings.log.user, world.versionControlUser])) ∧
    (Hides request.user settings.log.user →
      Records world request settings reports (program world words)
        (Log.firstUsable [world.versionControlUser])) := by
  have recorded := records_resolved parsed loaded analyzed logged
  refine ⟨fun heard => ?_, fun hides => ?_⟩
  · rwa [firstUsable_or heard] at recorded
  · rwa [firstUsable_or_of_hides hides] at recorded

end Runs

section Adas

def adasWorld : World where
  files := ⟨[("m.go", .file "x".toUTF8), (".golex.toml", .file "[log]\nuser = \"ada\"".toUTF8)], []⟩
  configHome := none
  environment := fun _ => none
  versionControlUser := some "grace"
  now := ⟨2025, 3, 7, 9, 5, 0, 0⟩
  isTerminal := false
  target := "native"

theorem program_records_blank_option :
    let padded : LexRequest := ⟨"m.go", none, false, none, some " l in", false⟩
    let slash : LexRequest := { padded with user := some "/" }
    let settings : Settings := { log := { user := some "ada" } }
    let reports : List Report := [⟨"m.go", [⟨.identifier, "x", 1, 1⟩], []⟩]
    CommandLine.read ["lex", "--user", " l in", "m.go"] = .ok ⟨false, .lex padded⟩ ∧
      CommandLine.read ["lex", "--user", "/", "m.go"] = .ok ⟨false, .lex slash⟩ ∧
      Settings.load adasWorld.files adasWorld.settingsPaths adasWorld.environment =
        .ok settings ∧
      Source.reports adasWorld.files "m.go" = .ok reports ∧
      Records adasWorld padded settings reports
        (program adasWorld ["lex", "--user", " l in", "m.go"]) "lin" ∧
      Records adasWorld slash settings reports
        (program adasWorld ["lex", "--user", "/", "m.go"]) "grace" := by
  intro padded slash settings reports
  have first : CommandLine.read ["lex", "--user", " l in", "m.go"] = .ok ⟨false, .lex padded⟩ := by
    decide +kernel
  have second : CommandLine.read ["lex", "--user", "/", "m.go"] = .ok ⟨false, .lex slash⟩ := by
    decide +kernel
  have loaded : Settings.load adasWorld.files adasWorld.settingsPaths adasWorld.environment =
      .ok settings := by decide +kernel
  have analyzed : Source.reports adasWorld.files "m.go" = .ok reports := by decide +kernel
  have heard : ¬ Hides padded.user settings.log.user :=
    fun hides => absurd hides.blank (by decide +kernel)
  have hides : Hides slash.user settings.log.user :=
    ⟨by decide, by decide +kernel, by decide +kernel⟩
  refine ⟨first, second, loaded, analyzed, ?_, ?_⟩
  · exact (program_records first loaded analyzed (by decide +kernel)).1 heard
  · exact (program_records second loaded analyzed (by decide +kernel)).2 hides

/-- A slash for a user on the command line hides the user of the settings. -/
theorem program_records_hidden :
    ¬ ∀ (world : World) (words : List String) (verbose : Bool) (request : LexRequest)
      (settings : Settings) (reports : List Report),
      CommandLine.read words = .ok ⟨verbose, .lex request⟩ →
      Settings.load world.files world.settingsPaths world.environment = .ok settings →
      Source.reports world.files request.path = .ok reports →
      (program world words).logPath.isSome = true →
      Records world request settings reports (program world words)
        (Log.firstUsable [request.user, settings.log.user, world.versionControlUser]) := by
  intro whole
  have recorded := whole adasWorld ["lex", "--user", "/", "m.go"] false
    ⟨"m.go", none, false, none, some "/", false⟩ { log := { user := some "ada" } }
    [⟨"m.go", [⟨.identifier, "x", 1, 1⟩], []⟩] (by decide +kernel) (by decide +kernel)
    (by decide +kernel) (by decide +kernel)
  have told : (program adasWorld ["lex", "--user", "/", "m.go"]).logPath =
      some "logs/lexico-grace-07-03-2025-09h05.txt" := by decide +kernel
  exact absurd (told.symm.trans recorded.path) (by decide +kernel)

end Adas

end LexicalReport.Run
