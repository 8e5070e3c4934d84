/-! What may stand on a command line: before the name of a command, and after the name of each
command. Switches stand alone, settings take a value, and slots are filled by ordinary words in
their order. -/

namespace LexicalReport.CommandLine

inductive Switch
  | help
  | version
  | verbose
  | noLog
  | failOnError
deriving DecidableEq, Repr

def Switch.name : Switch → String
  | help => "help"
  | version => "version"
  | verbose => "verbose"
  | noLog => "no-log"
  | failOnError => "fail-on-error"

def Switch.letter? : Switch → Option Char
  | help => some 'h'
  | version => some 'V'
  | verbose => some 'v'
  | _ => none

inductive Setting
  | format
  | logDirectory
  | user
deriving DecidableEq, Repr

def Setting.name : Setting → String
  | format => "format"
  | logDirectory => "log-dir"
  | user => "user"

inductive Slot
  | score
  | path
deriving DecidableEq, Repr

inductive Scope
  | top
  | average
  | grade
  | lex
  | schema
  | version
deriving DecidableEq, Repr

namespace Scope

def ofName? (name : String) : Option Scope :=
  if name = "average" then some average
  else if name = "grade" then some grade
  else if name = "lex" then some lex
  else if name = "schema" then some schema
  else if name = "version" then some version
  else none

def helpName : String := "help"

def isCommandName (name : String) : Bool :=
  name == helpName || (ofName? name).isSome

def switches : Scope → List Switch
  | top => [.help, .version, .verbose]
  | lex => [.help, .verbose, .noLog, .failOnError]
  | _ => [.help, .verbose]

def settings : Scope → List Setting
  | lex => [.format, .logDirectory, .user]
  | _ => []

def slots : Scope → List Slot
  | average => [.score, .score]
  | grade => [.score]
  | lex => [.path]
  | _ => []

def switch? (scope : Scope) (name : List Char) : Option Switch :=
  scope.switches.find? (fun s => s.name.toList == name)

def switchOfLetter? (scope : Scope) (letter : Char) : Option Switch :=
  scope.switches.find? (fun s => s.letter? == some letter)

def setting? (scope : Scope) (name : List Char) : Option Setting :=
  scope.settings.find? (fun s => s.name.toList == name)

end Scope

end LexicalReport.CommandLine
