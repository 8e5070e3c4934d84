import LexicalReport.Settings.Environment
import LexicalReport.Text.Alphabetic
import LexicalReport.Text.Numeric

/-! How much a run tells about itself. The filter of diagnostics is a level, or a level for one
target; a variable may choose it, and a switch of the command line raises the default. -/

namespace LexicalReport

inductive Level
  | off
  | error
  | warn
  | info
  | debug
  | trace
deriving DecidableEq, Repr

namespace Level

def name : Level → String
  | off => "off"
  | error => "error"
  | warn => "warn"
  | info => "info"
  | debug => "debug"
  | trace => "trace"

def all : List Level := [off, error, warn, info, debug, trace]

def ofText? (s : String) : Option Level :=
  let small := s.map Char.toLower
  all.find? (fun level => level.name == small || toString (all.idxOf level) == s)

end Level

structure Filter where
  target : Option String
  level : Level
deriving DecidableEq, Repr

namespace Filter

def default (verbose : Bool) : Filter :=
  ⟨none, if verbose then .debug else .warn⟩

def isTargetPart (c : Char) : Bool :=
  c == '_' || c == ':' || c == '-' || Text.isAlphabetic c || Text.isNumeric c

/-- The filter that a directive spells: a level, a target, or a target and its level. A target
without a level lets everything through. -/
def ofDirective? (s : String) : Option Filter :=
  match Level.ofText? s with
  | some level => some ⟨none, level⟩
  | none =>
    let target := s.toList.takeWhile isTargetPart
    match target, s.toList.dropWhile isTargetPart with
    | [], _ => none
    | _, [] | _, ['='] => some ⟨some (String.ofList target), .trace⟩
    | _, '=' :: level =>
      (Level.ofText? (String.ofList level)).map (fun l => ⟨some (String.ofList target), l⟩)
    | _, _ => none

def ofEnvironment (env : Environment) (verbose : Bool) : Filter :=
  ((env.nonEmpty? Environment.filter).bind ofDirective?).getD (default verbose)

def text (f : Filter) : String :=
  match f.target with
  | some target => target ++ "=" ++ f.level.name
  | none => f.level.name

end Filter

end LexicalReport
