import LexicalReport.Settings.Loading
import Mathlib.Tactic.Basic

/-! A settings text can be read in two ways: as the settings it gives on its own, with a default for
each key it leaves out, and as a layer that leaves those keys open. Both ways accept the same texts,
and the settings are the layer put over the defaults. -/

namespace LexicalReport.Settings

open Toml (Value Entries)
open Files (FileSystem)

section Fields

variable {α β : Type} (read? : Value → Option α) (fields : Entries) (name : String)

theorem withDefault?_eq_optional? (default : α) :
    withDefault? read? default fields name =
      (optional? read? fields name).map (·.getD default) := by
  rw [withDefault?, optional?]
  cases fields.find? name with
  | none => rfl
  | some value =>
    dsimp only
    cases read? value <;> rfl

theorem withDefault?_some :
    withDefault? (fun value => (read? value).map some) none fields name =
      optional? read? fields name :=
  rfl

theorem withDefault?_map (f : α → β) (default : α) :
    withDefault? (fun value => (read? value).map f) (f default) fields name =
      (withDefault? read? default fields name).map f := by
  rw [withDefault?, withDefault?]
  cases fields.find? name <;> rfl

end Fields

theorem logSettings?_eq_logLayer? (value : Value) : logSettings? value =
    (logLayer? value).map (fun layer => (({} : Settings).merge { log := layer }).log) := by
  rw [logSettings?, logLayer?]
  cases sectionFields? logNames value with
  | none => rfl
  | some fields =>
    have user : withDefault? (fun v => (text? v).map some) none fields "user" =
        optional? text? fields "user" := withDefault?_some text? fields "user"
    simp only [user, Option.bind_eq_bind, Option.bind_some]
    simp only [withDefault?_eq_optional?]
    cases optional? boolean? fields "enabled" with
    | none => rfl
    | some enabled =>
      cases optional? text? fields "dir" with
      | none => rfl
      | some directory => cases optional? text? fields "user" with
        | none => rfl
        | some user => simp [merge]

theorem outputSettings?_eq_outputLayer? (value : Value) : outputSettings? value =
    (outputLayer? value).map (fun layer => (({} : Settings).merge { output := layer }).output) := by
  rw [outputSettings?, outputLayer?]
  cases sectionFields? outputNames value with
  | none => rfl
  | some fields =>
    simp only [withDefault?_eq_optional?, Option.bind_eq_bind, Option.bind_some]
    cases optional? format? fields "format" with
    | none => rfl
    | some format => cases optional? boolean? fields "fail_on_error" <;> rfl

theorem ofEntries?_eq_layerOfEntries? (entries : Entries) :
    ofEntries? entries = (layerOfEntries? entries).map ({} : Settings).merge := by
  have log : withDefault? logSettings? {} entries "log" =
      (withDefault? logLayer? {} entries "log").map
        (fun layer => (({} : Settings).merge { log := layer }).log) := by
    rw [← withDefault?_map, funext logSettings?_eq_logLayer?]
    rfl
  have output : withDefault? outputSettings? {} entries "output" =
      (withDefault? outputLayer? {} entries "output").map
        (fun layer => (({} : Settings).merge { output := layer }).output) := by
    rw [← withDefault?_map, funext outputSettings?_eq_outputLayer?]
    rfl
  rw [ofEntries?, layerOfEntries?, log, output]
  cases withDefault? logLayer? {} entries "log" with
  | none => rfl
  | some layer => cases withDefault? outputLayer? {} entries "output" <;> rfl

/-- A text gives settings of its own exactly if it makes a layer, and these are the layer put over
the defaults. So are the settings of a run that finds the text in the only file it has and no
overrides. -/
theorem read?_eq_merge (text : String) :
    (read? text).isSome = (Layer.read? text).isSome ∧
      (∀ layer, Layer.read? text = some layer → read? text = some (({} : Settings).merge layer)) ∧
      ∀ (fs : FileSystem) (paths : List String) (path : String) (env : Environment),
        paths.filter fs.exists? = [path] → fs.readText path = .ok text → env.layer = {} →
          load fs paths env =
            match read? text with
            | some settings => .ok settings
            | none => .error (.unparsable path) := by
  have whole : read? text = (Layer.read? text).map ({} : Settings).merge := by
    rw [read?, Layer.read?, Option.map_bind]
    exact congrArg _ (funext ofEntries?_eq_layerOfEntries?)
  refine ⟨by rw [whole, Option.isSome_map], fun layer found => by rw [whole, found]; rfl, ?_⟩
  intro fs paths path env only content unset
  rw [load, readLayers, only, unset, whole]
  simp only [List.mapM_cons, readLayer, content]
  cases Layer.read? text <;> rfl

theorem read?_eq_merge_array_section :
    Layer.read? "log = [false, \"out\"]" =
        some { log := { enabled := some false, directory := some "out" } } ∧
      read? "log = [false, \"out\"]" = some { log := { enabled := false, directory := "out" } } ∧
      ["config.toml", ".golex.toml"].filter (FileSystem.exists?
        ⟨[(".golex.toml", .file "log = [false, \"out\"]".toUTF8)], []⟩) = [".golex.toml"] ∧
      FileSystem.readText ⟨[(".golex.toml", .file "log = [false, \"out\"]".toUTF8)], []⟩
        ".golex.toml" = .ok "log = [false, \"out\"]" ∧
      Environment.layer (fun _ => none) = {} ∧
      load ⟨[(".golex.toml", .file "log = [false, \"out\"]".toUTF8)], []⟩
        ["config.toml", ".golex.toml"] (fun _ => none) =
          .ok { log := { enabled := false, directory := "out" } } := by
  have found : Layer.read? "log = [false, \"out\"]" =
      some { log := { enabled := some false, directory := some "out" } } := by decide +kernel
  have only : ["config.toml", ".golex.toml"].filter (FileSystem.exists?
      ⟨[(".golex.toml", .file "log = [false, \"out\"]".toUTF8)], []⟩) = [".golex.toml"] := by
    decide +kernel
  obtain ⟨-, merged, loaded⟩ := read?_eq_merge "log = [false, \"out\"]"
  have given := merged _ found
  refine ⟨found, given, only, rfl, rfl, (loaded _ _ _ _ only rfl rfl).trans ?_⟩
  rw [given]
  rfl

end LexicalReport.Settings
