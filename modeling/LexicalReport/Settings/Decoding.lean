import LexicalReport.Settings.Basic
import LexicalReport.Toml.Reader

/-! Settings and layers read from TOML. Unknown keys are passed over, and a key with a value of the
wrong kind is an error. A section may also be an array of its fields in order, of which the last
ones may be missing and further items mean nothing; a list of tables is such an array. -/

namespace LexicalReport.Settings

open Toml (Value Entries)

/-- The fields of a section by their names. A date stands for a table without any of them. -/
def sectionFields? (names : List String) : Value → Option Entries
  | .table _ entries => some entries
  | .array items => some (names.zip items)
  | .tables items => some (names.zip (items.map (Value.table .header)))
  | .moment _ => some []
  | _ => none

def boolean? : Value → Option Bool
  | .boolean b => some b
  | _ => none

def text? : Value → Option String
  | .string text => some text
  | _ => none

def isEmptyGroup : Value → Bool
  | .table _ [] => true
  | .array [] => true
  | _ => false

/-- A format is its exact name, or a table with that name alone and nothing under it. -/
def format? : Value → Option Report.Format
  | .string name => Report.Format.ofName? name
  | .table _ [(name, inner)] => if isEmptyGroup inner then Report.Format.ofName? name else none
  | _ => none

def optional? {α : Type} (read? : Value → Option α) (fields : Entries) (name : String) :
    Option (Option α) :=
  match fields.find? name with
  | none => some none
  | some value => (read? value).map some

def withDefault? {α : Type} (read? : Value → Option α) (default : α) (fields : Entries)
    (name : String) : Option α :=
  match fields.find? name with
  | none => some default
  | some value => read? value

def logNames : List String := ["enabled", "dir", "user"]

def outputNames : List String := ["format", "fail_on_error"]

def logLayer? (value : Value) : Option LogLayer := do
  let fields ← sectionFields? logNames value
  return {
    enabled := ← optional? boolean? fields "enabled"
    directory := ← optional? text? fields "dir"
    user := ← optional? text? fields "user" }

def outputLayer? (value : Value) : Option OutputLayer := do
  let fields ← sectionFields? outputNames value
  return {
    format := ← optional? format? fields "format"
    failOnError := ← optional? boolean? fields "fail_on_error" }

def layerOfEntries? (entries : Entries) : Option Layer := do
  return {
    log := ← withDefault? logLayer? {} entries "log"
    output := ← withDefault? outputLayer? {} entries "output" }

def Layer.read? (s : String) : Option Layer :=
  (Toml.read? s).bind layerOfEntries?

def logSettings? (value : Value) : Option LogSettings := do
  let fields ← sectionFields? logNames value
  let default : LogSettings := {}
  return {
    enabled := ← withDefault? boolean? default.enabled fields "enabled"
    directory := ← withDefault? text? default.directory fields "dir"
    user := ← withDefault? (fun v => (text? v).map some) default.user fields "user" }

def outputSettings? (value : Value) : Option OutputSettings := do
  let fields ← sectionFields? outputNames value
  let default : OutputSettings := {}
  return {
    format := ← withDefault? format? default.format fields "format"
    failOnError := ← withDefault? boolean? default.failOnError fields "fail_on_error" }

def ofEntries? (entries : Entries) : Option Settings := do
  return {
    log := ← withDefault? logSettings? {} entries "log"
    output := ← withDefault? outputSettings? {} entries "output" }

def read? (s : String) : Option Settings :=
  (Toml.read? s).bind ofEntries?

end LexicalReport.Settings
