import LexicalReport.Proofs.Log.Writing
import LexicalReport.Run.Program

/-! The run that reports on sources, case by case. If the settings or the sources fail, nothing is
shown and nothing changes. Otherwise all reports are shown, a log is tried or not, and the exit code
tells whether that went well and whether errors count. So the two switches of the command line keep
out of each other's way: the one for errors has no part in what is shown and written, and the one
for the log has none in what is shown. -/

namespace LexicalReport.Run

open CommandLine (LexRequest)
open Files (FileSystem Path)

/-- A run has tried a log if it tells where the log is, or fails for want of it. -/
def Outcome.TriesLog (o : Outcome) : Prop :=
  o.logPath.isSome = true ∨ ∃ trail, o.failure = some ("failed to write analysis log" :: trail)

structure Silent (world : World) (o : Outcome) : Prop where
  output : o.output = ""
  files : o.files = world.files
  exitCode : o.exitCode = 1

/-- What comes of trying the log in a directory and for a user, as far as one is given. -/
def tryLog (world : World) (reports : List Report) (directory : String) (user : Option String) :
    FileSystem × Except Log.Failure String :=
  Log.write world.files reports directory (Log.resolveUser user world.versionControlUser) world.now

section Settled

variable (world : World) (request : LexRequest) (settings : Settings) (reports : List Report)

def requestedLog : FileSystem × Except Log.Failure String :=
  tryLog world reports (request.logDirectory.getD settings.log.directory)
    (request.user.or settings.log.user)

structure Published (o : Outcome) : Prop where
  output : o.output = (request.format.getD settings.output.format).render world.color reports
  triesLog : o.TriesLog ↔ request.noLog = false ∧ settings.log.enabled = true ∧ reports ≠ []
  files_of_tried : o.TriesLog → o.files = (requestedLog world request settings reports).1
  files_of_not_tried : ¬ o.TriesLog → o.files = world.files
  exitCode : o.exitCode = 0 ∨ o.exitCode = 1
  succeeds : o.exitCode = 0 ↔
    (o.TriesLog → ∃ path, (requestedLog world request settings reports).2 = .ok path) ∧
      ¬ ((request.failOnError = true ∨ settings.output.failOnError = true) ∧
        ∃ r ∈ reports, r.errors ≠ [])

end Settled

theorem errors_pos_iff (reports : List Report) :
    0 < (Totals.ofReports reports).errors ↔ ∃ r ∈ reports, r.errors ≠ [] := by
  rw [Totals.ofReports, List.length_pos_iff, ne_eq, List.flatMap_eq_nil_iff]
  simp

theorem found_ne_failed (n : Nat) :
    "found " ++ toString n ++ " lexical error(s)" ≠ "failed to write analysis log" := by
  intro same
  have second := congrArg (fun s => s.toList[1]?) same
  simp at second

section Conclusion

variable (plan : Plan) (reports : List Report) (output : String) (files : FileSystem)
  (logPath : Option String)

@[simp] theorem conclude_output : (conclude plan reports output files logPath).output = output := by
  rw [conclude]
  split <;> rfl

@[simp] theorem conclude_files : (conclude plan reports output files logPath).files = files := by
  rw [conclude]
  split <;> rfl

@[simp] theorem conclude_logPath :
    (conclude plan reports output files logPath).logPath = logPath := by
  rw [conclude]
  split <;> rfl

theorem conclude_triesLog :
    (conclude plan reports output files logPath).TriesLog ↔ logPath.isSome = true := by
  have other : ∀ trail, (conclude plan reports output files logPath).failure ≠
      some ("failed to write analysis log" :: trail) := by
    intro trail
    rw [conclude]
    split
    · exact fun same => found_ne_failed _ (List.cons.inj (Option.some.inj same)).1
    · simp
  simp [Outcome.TriesLog, other]

theorem conclude_exitCode : (conclude plan reports output files logPath).exitCode = 0 ∨
    (conclude plan reports output files logPath).exitCode = 1 := by
  rw [conclude]
  split <;> simp

theorem conclude_exitCode_eq_zero_iff :
    (conclude plan reports output files logPath).exitCode = 0 ↔
      ¬ (plan.failsOnError = true ∧ ∃ r ∈ reports, r.errors ≠ []) := by
  rw [← errors_pos_iff, conclude]
  split <;> simp_all

end Conclusion

section Publishing

variable (world : World) (plan : Plan) (reports : List Report)

theorem publish_cases :
    (¬ (plan.writesLog = true ∧ reports ≠ []) ∧ publish world plan reports =
      conclude plan reports (plan.format.render world.color reports) world.files none) ∨
    (plan.writesLog = true ∧ reports ≠ []) ∧
      ((∃ files path, tryLog world reports plan.logDirectory plan.user = (files, .ok path) ∧
        publish world plan reports =
          conclude plan reports (plan.format.render world.color reports) files (some path)) ∨
      ∃ files failure, tryLog world reports plan.logDirectory plan.user = (files, .error failure) ∧
        publish world plan reports = ⟨1, plan.format.render world.color reports,
          some ("failed to write analysis log" :: failure.trail), none, files⟩) := by
  have wants : (plan.writesLog && !reports.isEmpty) = true ↔
      plan.writesLog = true ∧ reports ≠ [] := by simp
  by_cases wanted : plan.writesLog = true ∧ reports ≠ []
  · refine .inr ⟨wanted, ?_⟩
    rw [publish, if_pos (wants.mpr wanted), tryLog]
    dsimp only
    rcases Log.write world.files reports plan.logDirectory
      (Log.resolveUser plan.user world.versionControlUser) world.now with ⟨files, failure | path⟩
    · exact .inr ⟨files, failure, rfl, rfl⟩
    · exact .inl ⟨files, path, rfl, rfl⟩
  · exact .inl ⟨wanted, by rw [publish, if_neg (mt wants.mp wanted)]⟩

theorem publish_output :
    (publish world plan reports).output = plan.format.render world.color reports := by
  obtain ⟨-, same⟩ | ⟨-, ⟨files, path, -, same⟩ | ⟨files, failure, -, same⟩⟩ :=
    publish_cases world plan reports
  all_goals simp [same]

theorem publish_triesLog :
    (publish world plan reports).TriesLog ↔ plan.writesLog = true ∧ reports ≠ [] := by
  obtain ⟨unwanted, same⟩ | ⟨wanted, ⟨files, path, -, same⟩ | ⟨files, failure, -, same⟩⟩ :=
    publish_cases world plan reports
  · simp [same, conclude_triesLog, unwanted]
  · simp [same, conclude_triesLog, wanted]
  · simp [same, Outcome.TriesLog, wanted]

theorem publish_files : (publish world plan reports).files =
    if plan.writesLog = true ∧ reports ≠ [] then
      (tryLog world reports plan.logDirectory plan.user).1
    else world.files := by
  obtain ⟨unwanted, same⟩ | ⟨wanted, ⟨files, path, tried, same⟩ | ⟨files, failure, tried, same⟩⟩ :=
    publish_cases world plan reports
  · rw [same, if_neg unwanted, conclude_files]
  · rw [same, if_pos wanted, tried, conclude_files]
  · rw [same, if_pos wanted, tried]

theorem publish_exitCode : (publish world plan reports).exitCode = 0 ∨
    (publish world plan reports).exitCode = 1 := by
  obtain ⟨-, same⟩ | ⟨-, ⟨files, path, -, same⟩ | ⟨files, failure, -, same⟩⟩ :=
    publish_cases world plan reports
  · exact same ▸ conclude_exitCode ..
  · exact same ▸ conclude_exitCode ..
  · rw [same]
    exact .inr rfl

theorem publish_succeeds : (publish world plan reports).exitCode = 0 ↔
    (plan.writesLog = true ∧ reports ≠ [] →
      ∃ path, (tryLog world reports plan.logDirectory plan.user).2 = .ok path) ∧
      ¬ (plan.failsOnError = true ∧ ∃ r ∈ reports, r.errors ≠ []) := by
  obtain ⟨unwanted, same⟩ | ⟨wanted, ⟨files, path, tried, same⟩ | ⟨files, failure, tried, same⟩⟩ :=
    publish_cases world plan reports
  · rw [same, conclude_exitCode_eq_zero_iff]
    exact ⟨fun fine => ⟨fun wanted => absurd wanted unwanted, fine⟩, And.right⟩
  · rw [same, conclude_exitCode_eq_zero_iff, tried]
    exact ⟨fun fine => ⟨fun _ => ⟨path, rfl⟩, fine⟩, And.right⟩
  · rw [same, tried]
    simp [wanted]

end Publishing

section Requests

variable (world : World) (request : LexRequest)

theorem lex_cases :
    Silent world (lex world request) ∧
        ((∃ failure, Settings.load world.files world.settingsPaths world.environment =
          .error failure) ∨ ∃ failure, Source.reports world.files request.path = .error failure) ∨
      ∃ settings reports, Settings.load world.files world.settingsPaths world.environment =
          .ok settings ∧ Source.reports world.files request.path = .ok reports ∧
        lex world request = publish world (.ofRequest request settings) reports := by
  cases loaded : Settings.load world.files world.settingsPaths world.environment with
  | error failure =>
    refine .inl ⟨?_, .inl ⟨failure, rfl⟩⟩
    simp only [lex, plan, loaded, Except.map]
    exact ⟨rfl, rfl, rfl⟩
  | ok settings =>
    cases analyzed : Source.reports world.files request.path with
    | error failure =>
      refine .inl ⟨?_, .inr ⟨failure, rfl⟩⟩
      simp only [lex, plan, loaded, analyzed, Except.map]
      exact ⟨rfl, rfl, rfl⟩
    | ok reports =>
      refine .inr ⟨settings, reports, rfl, rfl, ?_⟩
      simp only [lex, plan, loaded, analyzed, Except.map]

theorem published_publish (settings : Settings) (reports : List Report) :
    Published world request settings reports
      (publish world (.ofRequest request settings) reports) := by
  have tries := publish_triesLog world (.ofRequest request settings) reports
  have wants : (Plan.ofRequest request settings).writesLog = true ∧ reports ≠ [] ↔
      request.noLog = false ∧ settings.log.enabled = true ∧ reports ≠ [] := by
    simp [Plan.ofRequest, and_assoc]
  have fails : (Plan.ofRequest request settings).failsOnError = true ↔
      request.failOnError = true ∨ settings.output.failOnError = true := by
    simp [Plan.ofRequest]
  exact {
    output := publish_output ..
    triesLog := tries.trans wants
    files_of_tried := fun tried => by rw [publish_files, if_pos (tries.mp tried)]; rfl
    files_of_not_tried := fun untried => by rw [publish_files, if_neg (mt tries.mpr untried)]
    exitCode := publish_exitCode ..
    succeeds := by
      rw [publish_succeeds, ← tries, fails]
      rfl }

theorem lex_failOnError (b : Bool) :
    (lex world { request with failOnError := b }).output = (lex world request).output ∧
      (lex world { request with failOnError := b }).files = (lex world request).files := by
  simp only [lex, plan]
  cases Settings.load world.files world.settingsPaths world.environment with
  | error failure => exact ⟨rfl, rfl⟩
  | ok settings =>
    dsimp only [Except.map]
    cases Source.reports world.files request.path with
    | error failure => exact ⟨rfl, rfl⟩
    | ok reports =>
      simp only [publish_output, publish_files]
      exact ⟨rfl, rfl⟩

theorem lex_noLog :
    (lex world { request with noLog := true }).output = (lex world request).output ∧
      (lex world { request with noLog := true }).files = world.files := by
  simp only [lex, plan]
  cases Settings.load world.files world.settingsPaths world.environment with
  | error failure => exact ⟨rfl, rfl⟩
  | ok settings =>
    dsimp only [Except.map]
    cases Source.reports world.files request.path with
    | error failure => exact ⟨rfl, rfl⟩
    | ok reports =>
      simp only [publish_output, publish_files]
      exact ⟨rfl, if_neg (by simp [Plan.ofRequest])⟩

theorem lex_touches (place : List String) :
    (lex world request).files.standing place = world.files.standing place ∨
      ∃ settings, Settings.load world.files world.settingsPaths world.environment = .ok settings ∧
        Log.Touched world.files (lex world request).files
          (request.logDirectory.getD settings.log.directory)
          (Log.fileName (Log.resolveUser (request.user.or settings.log.user)
            world.versionControlUser) world.now) place := by
  obtain ⟨silent, -⟩ | ⟨settings, reports, loaded, -, same⟩ := lex_cases world request
  · exact .inl (by rw [silent.files])
  · rw [same, publish_files]
    split
    · exact (Log.write_touches world.files reports _ _ world.now place).imp_right
        fun touched => ⟨settings, loaded, touched⟩
    · exact .inl rfl

/-- A run for a command line that asks for reports. It is silent if the settings or the sources
fail, and else it shows the reports, tries the log and ends as `Published` tells. Of two runs that
differ in the switch for errors alone, both show and leave the same. Of two that differ in the
switch for the log alone, both show the same, and the files differ at most where the log may
change them. -/
theorem program_lex (world : World) {words : List String} {verbose : Bool} {request : LexRequest}
    (parsed : CommandLine.read words = .ok ⟨verbose, .lex request⟩) :
    ((∃ failure, Settings.load world.files world.settingsPaths world.environment = .error failure) ∨
        (∃ failure, Source.reports world.files request.path = .error failure) →
      Silent world (program world words)) ∧
    (∀ settings reports,
      Settings.load world.files world.settingsPaths world.environment = .ok settings →
      Source.reports world.files request.path = .ok reports →
      Published world request settings reports (program world words)) ∧
    (∀ others loud b,
      CommandLine.read others = .ok ⟨loud, .lex { request with failOnError := b }⟩ →
      (program world others).output = (program world words).output ∧
        (program world others).files = (program world words).files) ∧
    ∀ others loud,
      CommandLine.read others = .ok ⟨loud, .lex { request with noLog := true }⟩ →
      (program world others).output = (program world words).output ∧
        ∀ place, (program world words).files.standing place =
            (program world others).files.standing place ∨
          ∃ settings,
            Settings.load world.files world.settingsPaths world.environment = .ok settings ∧
            Log.Touched (program world others).files (program world words).files
              (request.logDirectory.getD settings.log.directory)
              (Log.fileName (Log.resolveUser (request.user.or settings.log.user)
                world.versionControlUser) world.now) place := by
  have runs {others : List String} {loud : Bool} {asked : LexRequest}
      (reads : CommandLine.read others = .ok ⟨loud, .lex asked⟩) :
      program world others = lex world asked := by
    rw [program, reads]
    rfl
  rw [runs parsed]
  refine ⟨fun fails => ?_, fun settings reports loaded analyzed => ?_,
    fun others loud b reads => ?_, fun others loud reads => ?_⟩
  · obtain ⟨silent, -⟩ | ⟨settings, reports, loaded, analyzed, -⟩ := lex_cases world request
    · exact silent
    · simp [loaded, analyzed] at fails
  · obtain ⟨-, fails⟩ | ⟨known, found, load, analyze, same⟩ := lex_cases world request
    · simp [loaded, analyzed] at fails
    · obtain rfl : settings = known := by simpa [loaded] using load
      obtain rfl : reports = found := by simpa [analyzed] using analyze
      exact same ▸ published_publish world request settings reports
  · rw [runs reads]
    exact lex_failOnError world request b
  · obtain ⟨output, files⟩ := lex_noLog world request
    rw [runs reads, files]
    exact ⟨output, lex_touches world request⟩

end Requests

theorem program_lex_illegal_character :
    let world : World := {
      files := ⟨[("main.go", .file "x @".toUTF8)], []⟩
      configHome := none
      environment := fun name => if name = Environment.user then some "ada" else none
      versionControlUser := none
      now := ⟨2025, 3, 7, 9, 5, 0, 0⟩
      isTerminal := false
      target := "native" }
    let request : LexRequest := ⟨"main.go", none, false, none, none, false⟩
    let settings : Settings := { log := { user := some "ada" } }
    let report : Report := ⟨"main.go", [⟨.identifier, "x", 1, 1⟩], [⟨.illegalCharacter '@', 1, 3⟩]⟩
    CommandLine.read ["lex", "main.go"] = .ok ⟨false, .lex request⟩ ∧
      CommandLine.read ["lex", "--fail-on-error", "main.go"] =
        .ok ⟨false, .lex { request with failOnError := true }⟩ ∧
      CommandLine.read ["lex", "--no-log", "main.go"] =
        .ok ⟨false, .lex { request with noLog := true }⟩ ∧
      Settings.load world.files world.settingsPaths world.environment = .ok settings ∧
      Source.reports world.files request.path = .ok [report] ∧
      Source.reports world.files "gone.go" = .error (.notFound "gone.go") ∧
      Published world request settings [report] (program world ["lex", "main.go"]) ∧
      Silent world (program world ["lex", "gone.go"]) ∧
      (program world ["lex", "--fail-on-error", "main.go"]).files =
        (program world ["lex", "main.go"]).files ∧
      (program world ["lex", "--no-log", "main.go"]).output =
        (program world ["lex", "main.go"]).output := by
  intro world request settings report
  have plain : CommandLine.read ["lex", "main.go"] = .ok ⟨false, .lex request⟩ := by
    decide +kernel
  have strict : CommandLine.read ["lex", "--fail-on-error", "main.go"] =
      .ok ⟨false, .lex { request with failOnError := true }⟩ := by decide +kernel
  have quiet : CommandLine.read ["lex", "--no-log", "main.go"] =
      .ok ⟨false, .lex { request with noLog := true }⟩ := by decide +kernel
  have loaded : Settings.load world.files world.settingsPaths world.environment =
      .ok settings := by decide +kernel
  have analyzed : Source.reports world.files request.path = .ok [report] := by decide +kernel
  have missing : CommandLine.read ["lex", "gone.go"] =
      .ok ⟨false, .lex { request with path := "gone.go" }⟩ := by decide +kernel
  have gone : Source.reports world.files "gone.go" = .error (.notFound "gone.go") := by
    decide +kernel
  obtain ⟨-, published, errors, log⟩ := program_lex world plain
  exact ⟨plain, strict, quiet, loaded, analyzed, gone, published _ _ loaded analyzed,
    (program_lex world missing).1 (.inr ⟨_, gone⟩), (errors _ _ true strict).2,
    (log _ _ quiet).1⟩

end LexicalReport.Run
