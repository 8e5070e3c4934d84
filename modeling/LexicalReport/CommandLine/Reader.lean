import LexicalReport.CommandLine.Draft

/-! Reading a command line. Words are taken from left to right, and the first mistake or the first
wish for help or for the version ends the reading; settings that exclude each other and missing
words are found only after that. -/

namespace LexicalReport.CommandLine

namespace Draft

def scores (draft : Draft) : List Int64 :=
  draft.given.filterMap (fun g => match g with
    | .score value => some value
    | _ => none)

def path? (draft : Draft) : Option String :=
  draft.given.findSome? (fun g => match g with
    | .path path => some path
    | _ => none)

def format? (draft : Draft) : Option Report.Format :=
  draft.given.findSome? (fun g => match g with
    | .format format => some format
    | _ => none)

def logDirectory? (draft : Draft) : Option String :=
  draft.given.findSome? (fun g => match g with
    | .logDirectory path => some path
    | _ => none)

def user? (draft : Draft) : Option String :=
  draft.given.findSome? (fun g => match g with
    | .user name => some name
    | _ => none)

def lexRequest (draft : Draft) (path : String) : LexRequest where
  path := path
  format := draft.format?
  noLog := draft.isGiven .noLog
  logDirectory := draft.logDirectory?
  user := draft.user?
  failOnError := draft.isGiven .failOnError

def command? (draft : Draft) : Scope → Option Command
  | .top => none
  | .average =>
    match draft.scores with
    | [first, second] => some (.average first second)
    | _ => none
  | .grade =>
    match draft.scores with
    | [points] => some (.grade points)
    | _ => none
  | .lex => draft.path?.map (fun path => .lex (draft.lexRequest path))
  | .schema => some .schema
  | .version => some .version

def command (draft : Draft) (scope : Scope) : Except Refusal Command :=
  if draft.isGiven .noLog && draft.logDirectory?.isSome then .error .conflict
  else match draft.command? scope with
    | some command => .ok command
    | none => .error .missingArgument

end Draft

def readScope (before : Draft) (scope : Scope) (words : List String) :
    Except Refusal Invocation := do
  let draft ← (Draft.start scope).takeAll scope words
  let command ← draft.command scope
  return ⟨before.isGiven .verbose || draft.isGiven .verbose, command⟩

/-- Help may be asked for with at most one command. -/
def readHelp : List String → Refusal
  | [] => .helpWanted
  | [name] => if Scope.isCommandName name then .helpWanted else .unknownCommand
  | _ => .unknownCommand

def withoutCommand (before : Draft) : Refusal :=
  if before.given.isEmpty then .nothingGiven else .missingCommand

def readFrom : Draft → List String → Except Refusal Invocation
  | before, [] => .error (withoutCommand before)
  | before, word :: rest =>
    match Scope.ofName? word with
    | some scope => readScope before scope rest
    | none =>
      if word = Scope.helpName then .error (readHelp rest)
      else if Word.ofText word = .endOfOptions then
        match rest with
        | [] => .error (withoutCommand before)
        | next :: _ => .error (Draft.surplus .top next)
      else do readFrom (← before.take .top word) rest

def read (words : List String) : Except Refusal Invocation :=
  readFrom (Draft.start .top) words

end LexicalReport.CommandLine
