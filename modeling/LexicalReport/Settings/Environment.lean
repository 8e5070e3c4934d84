import LexicalReport.Settings.Basic
import LexicalReport.Text.Blank

/-! Environment variables, and the settings they override. A blank value counts as no value where a
text is wanted. A switch is told by a few words in capital or small letters, and any other value of
it is handed back as it is. -/

namespace LexicalReport

abbrev Environment := String → Option String

namespace Environment

def logDirectory : String := "GOLEX_LOG_DIR"

def noLog : String := "GOLEX_NO_LOG"

def user : String := "GOLEX_USER"

def format : String := "GOLEX_FORMAT"

def filter : String := "GOLEX_LOG"

def nonEmpty? (env : Environment) (name : String) : Option String :=
  ((env name).map Text.trim).filter (fun value => value != "")

/-- The meaning of a word for a switch. Only ASCII letters fold here: no other character has a small
form that occurs in these words. -/
def switchWord? (word : String) : Option Bool :=
  let small := word.map Char.toLower
  if small = "true" ∨ small = "1" ∨ small = "yes" ∨ small = "on" then some true
  else if small = "false" ∨ small = "0" ∨ small = "no" ∨ small = "off" then some false
  else none

def flag? (env : Environment) (name : String) : Option (Except String Bool) :=
  (env name).map (fun raw =>
    match switchWord? raw with
    | some state => .ok state
    | none => .error raw)

/-- The layer of settings that the variables make. A value that cannot be understood sets
nothing. -/
def layer (env : Environment) : Settings.Layer where
  log := {
    enabled :=
      match env.flag? noLog with
      | some (.ok off) => some (!off)
      | _ => none
    directory := env.nonEmpty? logDirectory
    user := env.nonEmpty? user }
  output := {
    format := (env.nonEmpty? format).bind Report.Format.ofAnyCase?
    failOnError := none }

end Environment

end LexicalReport
