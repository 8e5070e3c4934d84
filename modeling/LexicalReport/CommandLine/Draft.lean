import LexicalReport.CommandLine.Basic
import LexicalReport.CommandLine.Scope
import LexicalReport.CommandLine.Score
import LexicalReport.CommandLine.Word

/-! A scope of a command line that is being read. A value given by a word of its own is looked at
only when the next known word arrives or when the words end, so a mistake in the words between
is met first. -/

namespace LexicalReport.CommandLine

inductive Given
  | switch (s : Switch)
  | format (format : Report.Format)
  | logDirectory (path : String)
  | user (name : String)
  | score (value : Int64)
  | path (path : String)
deriving DecidableEq, Repr

def Given.setting? : Given → Option Setting
  | format _ => some .format
  | logDirectory _ => some .logDirectory
  | user _ => some .user
  | _ => none

def pathValue (make : String → Given) (value : String) : Except Refusal Given :=
  if value = "" then .error .unusableValue else .ok (make value)

def Setting.read (setting : Setting) (value : String) : Except Refusal Given :=
  match setting with
  | .format =>
    match Report.Format.ofName? value with
    | some found => .ok (.format found)
    | none => .error .unusableValue
  | .logDirectory => pathValue .logDirectory value
  | .user => .ok (.user value)

def Slot.read (slot : Slot) (value : String) : Except Refusal Given :=
  match slot with
  | .score =>
    match score? value with
    | some n => .ok (.score n)
    | none => .error .malformedScore
  | .path => pathValue .path value

/-- A setting or a slot whose value has not been looked at yet. A setting may still wait for it. -/
inductive Pending
  | setting (s : Setting) (value : Option String)
  | slot (s : Slot) (value : String)
deriving DecidableEq, Repr

def Pending.read (given : List Given) : Pending → Except Refusal Given
  | setting _ none => .error .unusableValue
  | setting s (some value) =>
    if given.any (fun g => g.setting? == some s) then .error .conflict else s.read value
  | slot s value => s.read value

structure Draft where
  given : List Given
  pending : Option Pending
  slots : List Slot
deriving DecidableEq, Repr

namespace Draft

def start (scope : Scope) : Draft :=
  ⟨[], none, scope.slots⟩

def settle (draft : Draft) : Except Refusal Draft :=
  match draft.pending with
  | none => .ok draft
  | some pending =>
    match pending.read draft.given with
    | .ok found => .ok { draft with given := draft.given ++ [found], pending := none }
    | .error refusal => .error refusal

def isGiven (draft : Draft) (s : Switch) : Bool :=
  draft.given.contains (.switch s)

def turnOn (draft : Draft) (s : Switch) : Except Refusal Draft := do
  let settled ← draft.settle
  match s with
  | .help => .error .helpWanted
  | .version => .error .versionWanted
  | _ =>
    if settled.isGiven s then .error .conflict
    else return { settled with given := settled.given ++ [.switch s] }

def begin (draft : Draft) (s : Setting) (attached : Option String) : Except Refusal Draft := do
  let started := { ← draft.settle with pending := some (.setting s attached) }
  if attached.isSome then started.settle else return started

/-- Why a word that no slot takes is refused. In front of a command it is taken for the name of an
unknown one. -/
def surplus (scope : Scope) (word : String) : Refusal :=
  if scope = .top ∧ !Scope.isCommandName word then .unknownCommand else .unknownArgument

def fill (scope : Scope) (draft : Draft) (word : String) : Except Refusal Draft :=
  match draft.slots with
  | slot :: rest => do
    return { ← draft.settle with pending := some (.slot slot word), slots := rest }
  | [] => .error (surplus scope word)

def turnOnLetters (scope : Scope) : Draft → List Char → Except Refusal Draft
  | draft, [] => .ok draft
  | draft, letter :: rest =>
    match scope.switchOfLetter? letter with
    | some s => do turnOnLetters scope (← draft.turnOn s) rest
    | none => .error .unknownArgument

def takeLong (scope : Scope) (draft : Draft) (name : List Char) (value : Option (List Char)) :
    Except Refusal Draft :=
  match scope.setting? name with
  | some s => draft.begin s (value.map String.ofList)
  | none =>
    match scope.switch? name with
    | some s => if value.isSome then .error .surplusValue else draft.turnOn s
    | none => .error .unknownArgument

/-- Take a word before the end of the options. A negative number fills a slot for a score. -/
def take (scope : Scope) (draft : Draft) (word : String) : Except Refusal Draft :=
  match Word.ofText word with
  | .long name value => draft.takeLong scope name value
  | .cluster letters =>
    if draft.slots.head? = some .score ∧ isUnsignedNumber letters then draft.fill scope word
    else draft.turnOnLetters scope letters
  | _ =>
    match draft.pending with
    | some (.setting s none) => .ok { draft with pending := some (.setting s (some word)) }
    | _ => draft.fill scope word

def fillAll (scope : Scope) : Draft → List String → Except Refusal Draft
  | draft, [] => draft.settle
  | draft, word :: rest => do fillAll scope (← draft.fill scope word) rest

def takeAll (scope : Scope) : Draft → List String → Except Refusal Draft
  | draft, [] => draft.settle
  | draft, word :: rest =>
    if Word.ofText word = .endOfOptions then fillAll scope draft rest
    else do takeAll scope (← draft.take scope word) rest

end Draft

end LexicalReport.CommandLine
