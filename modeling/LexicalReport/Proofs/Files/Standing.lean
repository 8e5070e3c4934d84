import LexicalReport.Files.Operations
import Mathlib.Logic.Function.Basic
import Mathlib.Tactic.SplitIfs

/-! What stands at each place of a file system: nothing, a directory, or a file with its content.
To follow a path is to look at nothing else, and to put a file or an empty directory at a place
changes what stands there and nowhere else. -/

namespace LexicalReport.Files

inductive Standing
  | nothing
  | directory
  | file (content : ByteArray)

instance (s : Standing) : Decidable (s = .nothing) :=
  match s with
  | .nothing => isTrue rfl
  | .directory => isFalse nofun
  | .file _ => isFalse nofun

def Standing.ofNode? : Option Node → Standing
  | none => .nothing
  | some (.directory _) => .directory
  | some (.file content) => .file content

namespace Node

def below? : Node → List String → Option Node
  | .directory entries, place => Entries.at? entries place
  | .file content, [] => some (.file content)
  | .file _, _ :: _ => none

@[simp] theorem below?_nil (node : Node) : node.below? [] = some node := by
  cases node <;> simp [below?, Entries.at?]

def IsBare (node : Node) : Prop :=
  ∀ name rest, node.below? (name :: rest) = none

theorem isBare_file (content : ByteArray) : (file content).IsBare := by
  simp [IsBare, below?]

theorem isBare_directory : (directory []).IsBare := by
  simp [IsBare, below?, Entries.at?, Entries.find?]

end Node

namespace Entries

theorem find?_cons (entry : String × Node) (rest : Entries) (name : String) :
    Entries.find? (entry :: rest) name =
      if entry.1 = name then some entry.2 else rest.find? name := by
  by_cases same : entry.1 = name
  · simp [find?, same]
  · simp [find?, same]

theorem mem_of_find? {entries : Entries} {name : String} {node : Node}
    (found : entries.find? name = some node) : (name, node) ∈ entries := by
  induction entries with
  | nil => cases found
  | cons entry rest ih =>
    rw [find?_cons] at found
    split at found
    · rename_i same
      cases same
      cases found
      exact List.mem_cons_self
    · exact List.mem_cons_of_mem _ (ih found)

theorem name_mem_of_find? {entries : Entries} {name : String} {node : Node}
    (found : entries.find? name = some node) : name ∈ entries.map Prod.fst :=
  List.mem_map.mpr ⟨_, mem_of_find? found, rfl⟩

theorem find?_put (name other : String) (node : Node) (entries : Entries) :
    (entries.put name node).find? other =
      if other = name then some node else entries.find? other := by
  induction entries with
  | nil =>
    by_cases same : name = other
    · simp [put, find?, same]
    · simp [put, find?, same, Ne.symm same]
  | cons entry rest ih =>
    simp only [find?] at ih ⊢
    by_cases here : entry.1 = name
    · by_cases same : name = other
      · simp [put, here, same]
      · simp [put, here, same, Ne.symm same]
    · by_cases same : entry.1 = other
      · simp [put, same, same ▸ here]
      · simp [put, here, same, ih]

theorem at?_cons (entries : Entries) (name : String) (rest : List String) :
    entries.at? (name :: rest) = (entries.find? name).bind (·.below? rest) := by
  rw [at?]
  rcases entries.find? name with _ | content | inner
  · rfl
  · cases rest <;> rfl
  · simp [Node.below?]

theorem below?_cons (entries : Entries) (name : String) (rest : List String) :
    (Node.directory entries).below? (name :: rest) = (entries.find? name).bind (·.below? rest) :=
  at?_cons entries name rest

theorem find?_of_at?_cons {entries inner : Entries} {name : String} {place : List String}
    (found : entries.at? (name :: place) = some (.directory inner)) :
    ∃ next, entries.find? name = some (.directory next) ∧
      Entries.at? next place = some (.directory inner) := by
  rw [at?_cons] at found
  cases here : entries.find? name with
  | none => simp [here] at found
  | some node =>
    rw [here, Option.bind_some] at found
    cases node with
    | file content => cases place <;> simp [Node.below?] at found
    | directory next => exact ⟨next, rfl, by simpa [Node.below?] using found⟩

theorem at?_append {entries inner : Entries} {place : List String}
    (found : entries.at? place = some (.directory inner)) (rest : List String) :
    entries.at? (place ++ rest) = inner.at? rest := by
  induction place generalizing entries with
  | nil =>
    have same : entries = inner := by simpa [at?] using found
    rw [same, List.nil_append]
  | cons name place ih =>
    obtain ⟨next, here, inside⟩ := find?_of_at?_cons found
    rw [List.cons_append, at?_cons, here]
    simpa [Node.below?] using ih inside

theorem putAt_cons (node : Node) {rest : List String} (more : rest ≠ []) {entries inner : Entries}
    {name : String} (found : entries.find? name = some (.directory inner)) :
    entries.putAt node (name :: rest) =
      entries.put name (.directory (putAt node rest inner)) := by
  cases rest with
  | nil => exact absurd rfl more
  | cons next rest => simp [putAt, found]

/-- What stands at each place after a bare node has been put where no directory is. -/
theorem standing_putAt {node : Node} (bare : node.IsBare) {name : String} {entries inner : Entries}
    {place : List String} (found : entries.at? place = some (.directory inner))
    (free : Standing.ofNode? (inner.find? name) ≠ .directory) (other : List String) :
    Standing.ofNode? ((entries.putAt node (place ++ [name])).at? other) =
      if other = place ++ [name] then .ofNode? (some node)
      else .ofNode? (entries.at? other) := by
  induction place generalizing entries other with
  | nil =>
    have same : entries = inner := by simpa [at?] using found
    subst same
    cases other with
    | nil => simp [at?, Standing.ofNode?]
    | cons first rest =>
      by_cases here : first = name
      · -- nothing is below the place, neither before nor after
        cases rest with
        | nil => simp [putAt, at?_cons, find?_put, here]
        | cons second rest =>
          subst here
          rcases old : entries.find? first with _ | content | below
          · simp [putAt, at?_cons, find?_put, old, bare second rest]
          · simp [putAt, at?_cons, find?_put, old, bare second rest, Node.below?.eq_3]
          · simp [old, Standing.ofNode?] at free
      · simp [putAt, at?_cons, find?_put, here]
  | cons next place ih =>
    obtain ⟨middle, here, inside⟩ := find?_of_at?_cons found
    rw [List.cons_append, putAt_cons node (by simp) here]
    cases other with
    | nil => simp [at?, Standing.ofNode?]
    | cons first rest =>
      by_cases same : first = next
      · subst same
        simpa [at?_cons, find?_put, here, Node.below?] using ih inside rest
      · simp [at?_cons, find?_put, same]

end Entries

namespace FileSystem

variable {fs : FileSystem} {place : List String}

def standing (fs : FileSystem) (place : List String) : Standing :=
  .ofNode? (fs.node? place)

theorem standing_eq_nothing_iff : fs.standing place = .nothing ↔ fs.node? place = none := by
  rw [standing]
  rcases fs.node? place with _ | content | inner <;> simp [Standing.ofNode?]

theorem standing_eq_file_iff {content : ByteArray} :
    fs.standing place = .file content ↔ fs.node? place = some (.file content) := by
  rw [standing]
  rcases fs.node? place with _ | old | inner <;> simp [Standing.ofNode?]

theorem readText_of_file {s text : String} (reached : fs.place s = .ok place)
    (stands : fs.standing place = .file text.toUTF8) : fs.readText s = .ok text := by
  have decoded : String.fromUTF8? text.toUTF8 = some text := dif_pos text.isValidUTF8
  rw [readText, readBytes, node, reached]
  simp only [bind, Except.bind, standing_eq_file_iff.mp stands, decoded]

/-- The entries of a place are there exactly if a directory stands at it, and then they are what
stands one part further. -/
theorem entriesOf_eq (fs : FileSystem) (place : List String) :
    match fs.standing place with
    | .nothing => fs.entriesOf place = .error .notFound
    | .file _ => fs.entriesOf place = .error .notDirectory
    | .directory => ∃ entries, fs.entriesOf place = .ok entries ∧
        fs.node? place = some (.directory entries) ∧
        ∀ name, entries.find? name = fs.node? (place ++ [name]) := by
  rw [standing, entriesOf]
  cases found : fs.node? place with
  | none => rfl
  | some node =>
    cases node with
    | file content => rfl
    | directory entries =>
      refine ⟨entries, rfl, rfl, fun name => ?_⟩
      rw [node?, Entries.at?_append found, Entries.at?_cons]
      cases Entries.find? entries name <;> simp

theorem entriesOf_of_directory (directory : fs.standing place = .directory) :
    ∃ entries, fs.entriesOf place = .ok entries ∧ fs.node? place = some (.directory entries) ∧
      ∀ name, entries.find? name = fs.node? (place ++ [name]) := by
  have all := entriesOf_eq fs place
  rwa [directory] at all

theorem standing_of_entriesOf {entries : Entries} (found : fs.entriesOf place = .ok entries) :
    fs.standing place = .directory := by
  have all := entriesOf_eq fs place
  cases here : fs.standing place with
  | directory => rfl
  | _ => simp [here, found] at all

theorem follow_cons (fs : FileSystem) (place : List String) (part : String) (rest : List String) :
    fs.follow place (part :: rest) =
      match fs.standing place with
      | .nothing => .error .notFound
      | .file _ => .error .notDirectory
      | .directory =>
        if part = "." then fs.follow place rest
        else if part = ".." then fs.follow place.dropLast rest
        else if nameLimit < part.utf8ByteSize then .error .nameTooLong
        else if fs.standing (place ++ [part]) = .nothing then .error .notFound
        else fs.follow (place ++ [part]) rest := by
  have all := entriesOf_eq fs place
  rw [follow]
  cases here : fs.standing place with
  | nothing | file content =>
    rw [here] at all
    rw [all]
    rfl
  | directory =>
    obtain ⟨entries, found, -, next⟩ := entriesOf_of_directory here
    have free : (entries.find? part).isSome =
        !decide (fs.standing (place ++ [part]) = .nothing) := by
      rw [next]
      cases there : fs.node? (place ++ [part]) <;> simp [standing_eq_nothing_iff, there]
    rw [found]
    simp only [bind, Except.bind, free]
    simp

theorem follow_append (fs : FileSystem) (place first rest : List String) :
    fs.follow place (first ++ rest) = (fs.follow place first).bind (fs.follow · rest) := by
  induction first generalizing place with
  | nil => rfl
  | cons part first ih =>
    rw [List.cons_append, follow_cons, follow_cons]
    cases fs.standing place with
    | directory =>
      dsimp only
      split_ifs <;> first | rfl | exact ih _
    | _ => rfl

theorem standing_put {node : Node} (bare : node.IsBare) {name : String}
    (parent : fs.standing place = .directory)
    (free : fs.standing (place ++ [name]) ≠ .directory) :
    standing { fs with root := fs.root.putAt node (place ++ [name]) } =
      Function.update fs.standing (place ++ [name]) (.ofNode? (some node)) := by
  obtain ⟨entries, -, found, next⟩ := entriesOf_of_directory parent
  funext other
  rw [standing, ← next] at free
  rw [Function.update_apply]
  exact Entries.standing_putAt bare found free other

end FileSystem

end LexicalReport.Files
