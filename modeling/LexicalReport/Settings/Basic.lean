import LexicalReport.Report.Format

/-! The settings of a run. A layer sets some of the keys and leaves the others to the layers below
it; at the bottom every key has a default. -/

namespace LexicalReport

structure LogSettings where
  enabled : Bool := true
  directory : String := "logs"
  user : Option String := none
deriving DecidableEq, Repr

structure OutputSettings where
  format : Report.Format := .terminal
  failOnError : Bool := false
deriving DecidableEq, Repr

structure Settings where
  log : LogSettings := {}
  output : OutputSettings := {}
deriving DecidableEq, Repr

namespace Settings

structure LogLayer where
  enabled : Option Bool := none
  directory : Option String := none
  user : Option String := none
deriving DecidableEq, Repr

structure OutputLayer where
  format : Option Report.Format := none
  failOnError : Option Bool := none
deriving DecidableEq, Repr

structure Layer where
  log : LogLayer := {}
  output : OutputLayer := {}
deriving DecidableEq, Repr

/-- Put a layer over settings: each key that it sets wins. -/
def merge (settings : Settings) (layer : Layer) : Settings where
  log := {
    enabled := layer.log.enabled.getD settings.log.enabled
    directory := layer.log.directory.getD settings.log.directory
    user := layer.log.user.or settings.log.user }
  output := {
    format := layer.output.format.getD settings.output.format
    failOnError := layer.output.failOnError.getD settings.output.failOnError }

end Settings

end LexicalReport
