import LexicalReport.Settings.Loading
import Mathlib.Tactic.Basic

/-! Each key of the settings is decided on its own: by the environment if that gives a valid value,
else by the file of the working directory if it sets the key, else by the file of the user, and else
by the default. A file that exists and cannot be read, or makes no layer, ends the loading, and the
first such file is the one that is told. -/

namespace LexicalReport.Settings

open Files (FileSystem)

inductive Fails (fs : FileSystem) (path : String) : Failure → Prop
  | unreadable {cause : Files.Failure} (there : fs.exists? path = true)
      (broken : fs.readText path = .error cause) : Fails fs path (.unreadable path cause)
  | unparsable {text : String} (there : fs.exists? path = true)
      (readable : fs.readText path = .ok text) (broken : Layer.read? text = none) :
      Fails fs path (.unparsable path)

def layerAt? (fs : FileSystem) (path : String) : Option Layer :=
  if fs.exists? path then (fs.readText path).toOption.bind Layer.read? else none

def first {α : Type} (sources : List (Option α)) : Option α :=
  sources.findSome? id

@[simp] theorem first_nil {α : Type} : first ([] : List (Option α)) = none :=
  rfl

@[simp] theorem first_cons {α : Type} (source : Option α) (sources : List (Option α)) :
    first (source :: sources) = source.or (first sources) := by
  cases source <;> rfl

section Files

variable {fs : FileSystem} {path : String} {failure : Failure}

def failureAt? (fs : FileSystem) (path : String) : Option Failure :=
  if fs.exists? path then
    match readLayer fs path with
    | .error failure => some failure
    | .ok _ => none
  else none

theorem failureAt?_of_fails (fails : Fails fs path failure) :
    failureAt? fs path = some failure := by
  cases fails with
  | unreadable there broken => simp [failureAt?, readLayer, there, broken]
  | unparsable there readable broken => simp [failureAt?, readLayer, there, readable, broken]

theorem readLayer_eq (there : fs.exists? path = true) :
    (∃ failure, readLayer fs path = .error failure ∧ Fails fs path failure) ∨
      ∃ layer, readLayer fs path = .ok layer ∧ layerAt? fs path = some layer := by
  cases content : fs.readText path with
  | error cause =>
    exact .inl ⟨_, by simp [readLayer, content], .unreadable there content⟩
  | ok text =>
    cases read : Layer.read? text with
    | none => exact .inl ⟨_, by simp [readLayer, content, read], .unparsable there content read⟩
    | some layer =>
      refine .inr ⟨layer, by simp [readLayer, content, read], ?_⟩
      simp [layerAt?, there, content, read, Except.toOption]

theorem failureAt?_eq_some_iff : failureAt? fs path = some failure ↔ Fails fs path failure := by
  refine ⟨fun found => ?_, failureAt?_of_fails⟩
  by_cases there : fs.exists? path = true
  · rcases readLayer_eq there with ⟨other, read, fails⟩ | ⟨layer, read, -⟩
    · have same : other = failure := by simpa [failureAt?, there, read] using found
      exact same ▸ fails
    · simp [failureAt?, there, read] at found
  · simp [failureAt?, there] at found

theorem failureAt?_eq_none_iff :
    failureAt? fs path = none ↔ ∀ failure, ¬ Fails fs path failure := by
  simp [Option.eq_none_iff_forall_ne_some, failureAt?_eq_some_iff]

theorem readLayers_eq (fs : FileSystem) (paths : List String) :
    readLayers fs paths =
      match paths.findSome? (failureAt? fs) with
      | some failure => .error failure
      | none => .ok (paths.filterMap (layerAt? fs)) := by
  induction paths with
  | nil => rfl
  | cons path paths ih =>
    rw [readLayers] at ih ⊢
    by_cases there : fs.exists? path = true
    · rw [List.filter_cons_of_pos there, List.mapM_cons, ih, List.findSome?_cons]
      rcases readLayer_eq there with ⟨failure, read, fails⟩ | ⟨layer, read, set⟩
      · rw [read, failureAt?_of_fails fails]
        rfl
      · have fine : failureAt? fs path = none := by simp [failureAt?, there, read]
        rw [read, fine, List.filterMap_cons_some set]
        dsimp only
        cases paths.findSome? (failureAt? fs) <;> rfl
    · have fine : failureAt? fs path = none := by simp [failureAt?, there]
      have unset : layerAt? fs path = none := by simp [layerAt?, there]
      rw [List.filter_cons_of_neg there, ih, List.findSome?_cons, fine,
        List.filterMap_cons_none unset]

end Files

section Keys

/-- The settings in which each key has the value that the environment gives, else the one of the
nearer layer, else the one of the farther layer, and else the default. The environment gives no
value for failures on errors. -/
def decided (env : Environment) (nearer farther : Option Layer) : Settings where
  log := {
    enabled := (first [((env.flag? Environment.noLog).bind Except.toOption).map (!·),
      nearer.bind (·.log.enabled), farther.bind (·.log.enabled)]).getD true
    directory := (first [env.nonEmpty? Environment.logDirectory,
      nearer.bind (·.log.directory), farther.bind (·.log.directory)]).getD "logs"
    user := first [env.nonEmpty? Environment.user,
      nearer.bind (·.log.user), farther.bind (·.log.user)] }
  output := {
    format := (first [(env.nonEmpty? Environment.format).bind Report.Format.ofAnyCase?,
      nearer.bind (·.output.format), farther.bind (·.output.format)]).getD .terminal
    failOnError := (first [nearer.bind (·.output.failOnError),
      farther.bind (·.output.failOnError)]).getD false }

theorem enabled_layer (env : Environment) :
    env.layer.log.enabled = ((env.flag? Environment.noLog).bind Except.toOption).map (!·) := by
  rw [Environment.layer]
  rcases env.flag? Environment.noLog with _ | _ | off <;> rfl

theorem merge_layers (env : Environment) (nearer farther : Option Layer) :
    ((farther.toList ++ nearer.toList).foldl merge {}).merge env.layer =
      decided env nearer farther := by
  have output : env.layer.output =
      ⟨(env.nonEmpty? Environment.format).bind Report.Format.ofAnyCase?, none⟩ := rfl
  have log : env.layer.log = ⟨((env.flag? Environment.noLog).bind Except.toOption).map (!·),
      env.nonEmpty? Environment.logDirectory, env.nonEmpty? Environment.user⟩ := by
    rw [← enabled_layer]
    rfl
  cases farther <;> cases nearer <;> simp [merge, decided, log, output, Option.getD_or]

end Keys

section Loading

variable (fs : FileSystem) (home work : Option String) (env : Environment)

theorem filterMap_layerAt? : (home.toList ++ work.toList).filterMap (layerAt? fs) =
    (home.bind (layerAt? fs)).toList ++ (work.bind (layerAt? fs)).toList := by
  have one (path : Option String) :
      path.toList.filterMap (layerAt? fs) = (path.bind (layerAt? fs)).toList := by
    cases path with
    | none => rfl
    | some path => cases set : layerAt? fs path <;> simp [set]
  rw [List.filterMap_append, one, one]

theorem load_eq : load fs (home.toList ++ work.toList) env =
    match (home.toList ++ work.toList).findSome? (failureAt? fs) with
    | some failure => .error failure
    | none => .ok (decided env (work.bind (layerAt? fs)) (home.bind (layerAt? fs))) := by
  rw [load, readLayers_eq, ← merge_layers, ← filterMap_layerAt?]
  cases (home.toList ++ work.toList).findSome? (failureAt? fs) <;> rfl

/-- With a settings file of the user and one of the working directory, either of which may be
missing, loading fails exactly with the failure of the first file that fails, and gives settings
exactly if none fails; then each key is decided on its own. -/
theorem load_precedence :
    (∀ failure, load fs (home.toList ++ work.toList) env = .error failure ↔
      ∃ before path after, home.toList ++ work.toList = before ++ path :: after ∧
        Fails fs path failure ∧ ∀ earlier ∈ before, ∀ other, ¬ Fails fs earlier other) ∧
    ∀ settings, load fs (home.toList ++ work.toList) env = .ok settings ↔
      (∀ path ∈ home.toList ++ work.toList, ∀ failure, ¬ Fails fs path failure) ∧
        settings = decided env (work.bind (layerAt? fs)) (home.bind (layerAt? fs)) := by
  rw [load_eq]
  constructor
  · intro failure
    have told := List.findSome?_eq_some_iff (f := failureAt? fs) (b := failure)
      (l := home.toList ++ work.toList)
    simp only [failureAt?_eq_some_iff, failureAt?_eq_none_iff] at told
    rw [← told]
    cases (home.toList ++ work.toList).findSome? (failureAt? fs) <;> simp
  · intro settings
    have fine := List.findSome?_eq_none_iff (p := failureAt? fs)
      (l := home.toList ++ work.toList)
    simp only [failureAt?_eq_none_iff] at fine
    rw [← fine]
    cases (home.toList ++ work.toList).findSome? (failureAt? fs) <;> simp [eq_comm]

end Loading

/-- The nearer file restores the default format, and a value that is no switch decides nothing. -/
theorem load_precedence_restored_default :
    let fs : FileSystem := ⟨[
      ("config.toml", .file "[log]\nenabled = false\n[output]\nformat = \"json\"".toUTF8),
      (".golex.toml", .file "[output]\nformat = \"terminal\"".toUTF8)], []⟩
    let env : Environment := fun name =>
      if name = Environment.noLog then some "perhaps"
      else if name = Environment.user then some " ada " else none
    (∀ path ∈ ["config.toml", ".golex.toml"], ∀ failure, ¬ Fails fs path failure) ∧
      load fs ["config.toml", ".golex.toml"] env = .ok {
        log := { enabled := false, directory := "logs", user := some "ada" }
        output := { format := .terminal, failOnError := false } } := by
  intro fs env
  have fine : ∀ path ∈ ["config.toml", ".golex.toml"], ∀ failure, ¬ Fails fs path failure := by
    simp only [← failureAt?_eq_none_iff]
    decide +kernel
  refine ⟨fine, ((load_precedence fs (some "config.toml") (some ".golex.toml") env).2 _).mpr
    ⟨fine, ?_⟩⟩
  decide +kernel

end LexicalReport.Settings
