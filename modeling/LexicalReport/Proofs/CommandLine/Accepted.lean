import LexicalReport.CommandLine.Reader

/-! What no command line can ask for. A value is looked at before it counts as given, whichever way
it came in, so no path among what is given is empty; and a command is made of what is given only if
no two parts of it exclude each other. -/

namespace LexicalReport.CommandLine

/-- The result of a reading satisfies a property. A refused reading has none. -/
def Ensures {α : Type} (reading : Except Refusal α) (P : α → Prop) : Prop :=
  ∀ result, reading = .ok result → P result

namespace Ensures

variable {α β : Type} {P : α → Prop} {Q : β → Prop}

theorem ok {result : α} (holds : P result) : Ensures (.ok result) P := by
  intro _ same
  exact Except.ok.inj same ▸ holds

theorem error (refusal : Refusal) : Ensures (.error refusal) P := by
  rintro - ⟨⟩

theorem bind {first : Except Refusal α} {next : α → Except Refusal β} (before : Ensures first P)
    (after : ∀ found, P found → Ensures (next found) Q) : Ensures (first >>= next) Q := by
  intro result read
  cases found : first with
  | error refusal =>
    rw [found] at read
    exact nomatch read
  | ok value =>
    rw [found] at read
    exact after value (before value found) result read

end Ensures

def Given.Usable : Given → Prop
  | .logDirectory name | .path name => name ≠ ""
  | _ => True

theorem ensures_pathValue {make : String → Given} (value : String)
    (usable : value ≠ "" → (make value).Usable) : Ensures (pathValue make value) Given.Usable := by
  rw [pathValue]
  split
  · exact .error _
  · next filled => exact .ok (usable filled)

theorem Setting.ensures_read (s : Setting) (value : String) :
    Ensures (s.read value) Given.Usable := by
  cases s with
  | format =>
    rw [read]
    split
    · exact .ok trivial
    · exact .error _
  | logDirectory => exact ensures_pathValue value id
  | user => exact .ok trivial

theorem Slot.ensures_read (s : Slot) (value : String) : Ensures (s.read value) Given.Usable := by
  cases s with
  | score =>
    rw [read]
    split
    · exact .ok trivial
    · exact .error _
  | path => exact ensures_pathValue value id

theorem Pending.ensures_read (given : List Given) (pending : Pending) :
    Ensures (pending.read given) Given.Usable := by
  fun_cases read given pending with
  | case1 | case2 => exact .error _
  | case3 s value | case4 s value => exact s.ensures_read value

namespace Draft

def Usable (draft : Draft) : Prop :=
  ∀ g ∈ draft.given, g.Usable

variable {draft : Draft}

theorem usable_start (scope : Scope) : (start scope).Usable :=
  fun _ found => absurd found List.not_mem_nil

theorem Usable.append (usable : draft.Usable) {g : Given} (last : g.Usable)
    (pending : Option Pending) (slots : List Slot) :
    Usable ⟨draft.given ++ [g], pending, slots⟩ :=
  List.forall_mem_append.mpr ⟨usable, List.forall_mem_singleton.mpr last⟩

theorem Usable.settle (usable : draft.Usable) : Ensures draft.settle Usable := by
  rw [Draft.settle]
  split
  · exact .ok usable
  · next pending _ =>
    split
    · next found read => exact .ok (usable.append (pending.ensures_read _ found read) _ _)
    · exact .error _

theorem Usable.turnOn (usable : draft.Usable) (s : Switch) : Ensures (draft.turnOn s) Usable := by
  refine usable.settle.bind fun settled usable => ?_
  split
  · exact .error _
  · exact .error _
  · split
    · exact .error _
    · exact .ok (usable.append (g := .switch s) trivial _ _)

theorem Usable.begin (usable : draft.Usable) (s : Setting) (attached : Option String) :
    Ensures (draft.begin s attached) Usable := by
  refine usable.settle.bind fun settled usable => ?_
  have started : Usable { settled with pending := some (.setting s attached) } := usable
  split
  · exact started.settle
  · exact .ok started

theorem Usable.fill (usable : draft.Usable) (scope : Scope) (word : String) :
    Ensures (draft.fill scope word) Usable := by
  rw [Draft.fill]
  split
  · exact usable.settle.bind fun settled usable => .ok usable
  · exact .error _

theorem Usable.turnOnLetters (usable : draft.Usable) (scope : Scope) (letters : List Char) :
    Ensures (draft.turnOnLetters scope letters) Usable := by
  induction letters generalizing draft with
  | nil => exact .ok usable
  | cons letter rest ih =>
    rw [Draft.turnOnLetters]
    split
    · next s _ => exact (usable.turnOn s).bind fun after usable => ih usable
    · exact .error _

theorem Usable.takeLong (usable : draft.Usable) (scope : Scope) (name : List Char)
    (value : Option (List Char)) : Ensures (draft.takeLong scope name value) Usable := by
  rw [Draft.takeLong]
  split
  · exact usable.begin _ _
  · split
    · split
      · exact .error _
      · exact usable.turnOn _
    · exact .error _

theorem Usable.take (usable : draft.Usable) (scope : Scope) (word : String) :
    Ensures (draft.take scope word) Usable := by
  fun_cases Draft.take scope draft word with
  | case1 => exact usable.takeLong scope _ _
  | case2 => exact usable.fill scope word
  | case3 => exact usable.turnOnLetters scope _
  | case4 => exact .ok usable
  | case5 => exact usable.fill scope word

theorem Usable.fillAll (usable : draft.Usable) (scope : Scope) (words : List String) :
    Ensures (draft.fillAll scope words) Usable := by
  induction words generalizing draft with
  | nil => exact usable.settle
  | cons word rest ih => exact (usable.fill scope word).bind fun after usable => ih usable

theorem Usable.takeAll (usable : draft.Usable) (scope : Scope) (words : List String) :
    Ensures (draft.takeAll scope words) Usable := by
  induction words generalizing draft with
  | nil => exact usable.settle
  | cons word rest ih =>
    rw [Draft.takeAll]
    split
    · exact usable.fillAll scope rest
    · exact (usable.take scope word).bind fun after usable => ih usable

end Draft

/-- What holds of a request that a command line can make. -/
structure LexRequest.Allowed (request : LexRequest) : Prop where
  path : request.path ≠ ""
  logDirectory : request.logDirectory ≠ some ""
  exclusive : ¬ (request.noLog = true ∧ request.logDirectory.isSome = true)

namespace Draft

variable {draft : Draft}

theorem Usable.findSome? (usable : draft.Usable) {part : Given → Option String}
    (parts : ∀ g, part g = some "" → ¬ g.Usable) : draft.given.findSome? part ≠ some "" := by
  intro found
  obtain ⟨g, given, read⟩ := List.exists_of_findSome?_eq_some found
  exact parts g read (usable g given)

theorem Usable.logDirectory? (usable : draft.Usable) : draft.logDirectory? ≠ some "" :=
  usable.findSome? fun g => by cases g <;> simp [Given.Usable]

theorem Usable.path? (usable : draft.Usable) : draft.path? ≠ some "" :=
  usable.findSome? fun g => by cases g <;> simp [Given.Usable]

theorem Usable.command (usable : draft.Usable) (scope : Scope) :
    Ensures (draft.command scope) (fun c => ∀ request, c = .lex request → request.Allowed) := by
  rw [Draft.command]
  split
  · exact .error _
  · next exclusive =>
    split
    · next command made =>
      refine .ok ?_
      rintro request rfl
      cases scope with
      | lex =>
        obtain ⟨path, found, rfl⟩ : ∃ path, draft.path? = some path ∧
            draft.lexRequest path = request := by simpa [command?] using made
        have filled : path ≠ "" := by
          rintro rfl
          exact usable.path? found
        exact ⟨filled, usable.logDirectory?, by simpa [lexRequest] using exclusive⟩
      | average | grade =>
        simp only [command?] at made
        split at made <;> exact nomatch made
      | _ => exact nomatch made
    · exact .error _

end Draft

theorem allowed_of_readFrom (words : List String) (before : Draft) :
    Ensures (readFrom before words)
      (fun i => ∀ request, i.command = .lex request → request.Allowed) := by
  induction words generalizing before with
  | nil => exact .error _
  | cons word rest ih =>
    rw [readFrom.eq_def]
    dsimp only
    split
    · next scope _ =>
      refine ((Draft.usable_start scope).takeAll scope rest).bind fun draft usable => ?_
      exact (usable.command scope).bind fun command allowed => .ok allowed
    · split
      · exact .error _
      · split
        · split <;> exact .error _
        · exact Ensures.bind (P := fun _ => True) (fun _ _ => trivial) fun after _ => ih after

end LexicalReport.CommandLine
