import LexicalReport.Toml.Basic

/-! How a document grows. A header opens a table, and an assignment sets a key in the table opened
last. A table is opened once, what is written between braces is complete, and dotted keys may only
add to tables that dotted keys have made. -/

namespace LexicalReport.Toml.Entries

def updateLast (f : Entries → Option Entries) : List Entries → Option (List Entries)
  | [] => none
  | [last] => (f last).map ([·])
  | first :: second :: rest => (updateLast f (second :: rest)).map (first :: ·)

/-- Set a key below a path of dotted tables. The flag tells whether keys may be set in the table at
hand itself. -/
def assign (settable : Bool) : List String → String → Value → Entries → Option Entries
  | [], key, value, entries =>
    if settable && (entries.find? key).isNone then some (entries.put key value) else none
  | first :: path, key, value, entries =>
    match entries.find? first with
    | none => do
      let made ← assign true path key value []
      return entries.put first (.table .dotted made)
    | some (.table origin inner) =>
      if origin = .dotted ∨ origin = .passed then do
        let grown ← assign (origin == .dotted) path key value inner
        return entries.put first (.table origin grown)
      else none
    | some (.tables items) => do
      let grown ← updateLast (assign false path key value) items
      return entries.put first (.tables grown)
    | some _ => none

def within (f : Entries → Option Entries) : List String → Entries → Option Entries
  | [], entries => f entries
  | first :: path, entries =>
    match entries.find? first with
    | none => do
      let made ← within f path []
      return entries.put first (.table .passed made)
    | some (.table origin inner) =>
      if origin = .inline then none
      else do
        let grown ← within f path inner
        return entries.put first (.table origin grown)
    | some (.tables items) => do
      let grown ← updateLast (within f path) items
      return entries.put first (.tables grown)
    | some _ => none

/-- Open the table of a header under its last key. A table that was only passed before may still be
opened. -/
def openTable (key : String) (entries : Entries) : Option Entries :=
  match entries.find? key with
  | none => some (entries.put key (.table .header []))
  | some (.table .passed inner) => some (entries.put key (.table .header inner))
  | some _ => none

def openItem (key : String) (entries : Entries) : Option Entries :=
  match entries.find? key with
  | none => some (entries.put key (.tables [[]]))
  | some (.tables items) => some (entries.put key (.tables (items ++ [[]])))
  | some _ => none

end LexicalReport.Toml.Entries
