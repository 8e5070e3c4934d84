import LexicalReport.Proofs.Files.Growth

/-! Operations that are done again. A file that is written twice is as if it had been written the
second time alone, and directories that have been made are not made again. -/

namespace LexicalReport.Files

namespace Entries

theorem put_put (name : String) (first second : Node) (entries : Entries) :
    (entries.put name first).put name second = entries.put name second := by
  induction entries with
  | nil => simp [put]
  | cons entry rest ih =>
    by_cases here : entry.1 = name
    · simp [put, here]
    · simp [put, here, ih]

theorem putAt_putAt (first second : Node) (place : List String) (entries : Entries) :
    (entries.putAt first place).putAt second place = entries.putAt second place := by
  induction place generalizing entries with
  | nil => rfl
  | cons name rest ih =>
    cases rest with
    | nil => exact put_put name first second entries
    | cons next rest =>
      rcases found : entries.find? name with _ | content | inner
      · simp [putAt, found]
      · simp [putAt, found]
      · have more : next :: rest ≠ [] := List.cons_ne_nil next rest
        have put : (entries.put name (.directory (putAt first (next :: rest) inner))).find?
            name = some (.directory (putAt first (next :: rest) inner)) := by
          rw [find?_put, if_pos rfl]
        rw [putAt_cons first more found, putAt_cons second more put, ih, put_put,
          putAt_cons second more found]

end Entries

namespace FileSystem

variable {fs later : FileSystem} {place : List String} {p : Path} {name s : String}

section Files

theorem Writes.keep (writes : Writes fs s place name) (keeps : Keeps fs later)
    (workDir : later.workDir = fs.workDir)
    (free : later.standing (place ++ [name]) ≠ .directory) : Writes later s place name := by
  have start : later.start (.ofText s) = fs.start (.ofText s) := by
    rw [FileSystem.start, FileSystem.start, workDir]
  obtain ⟨last, above, parent, named, short⟩ := writes.leads
  exact ⟨writes.parsed, ⟨last, start ▸ keeps.follow above, keeps.directory place parent, named,
    short⟩, writes.opened, free⟩

/-- To write a file that has just been written replaces its content, and what the content was has
no part in that. -/
theorem writeBytes_again {written : FileSystem} {old : ByteArray}
    (done : fs.writeBytes s old = .ok written) (content : ByteArray) :
    written.writeBytes s content = fs.writeBytes s content := by
  obtain ⟨place, name, writes, rfl⟩ := writeBytes_eq_ok_iff.mp done
  have again : Writes (fs.putFile (place ++ [name]) old) s place name :=
    writes.keep (writes.keeps old) rfl (by simp [writes.standing_eq])
  have once : fs.writeBytes s content = .ok (fs.putFile (place ++ [name]) content) :=
    writeBytes_eq_ok_iff.mpr ⟨place, name, writes, rfl⟩
  rw [once, writeBytes_eq_ok_iff]
  refine ⟨place, name, again, ?_⟩
  rw [putFile, putFile, putFile, Entries.putAt_putAt]

end Files

section Directories

theorem isOk_entriesOf : (fs.entriesOf place).isOk = true ↔ fs.standing place = .directory := by
  constructor
  · intro found
    cases inside : fs.entriesOf place with
    | error failure => simp [inside, Except.isOk, Except.toBool] at found
    | ok entries => exact standing_of_entriesOf inside
  · intro directory
    obtain ⟨entries, inside, -⟩ := entriesOf_of_directory directory
    simp [inside, Except.isOk, Except.toBool]

/-- A directory is at a path if its parts lead to one. A slash that ends the path asks for nothing
more. -/
theorem isDirectoryAt_iff : fs.isDirectoryAt p = true ↔
    ∃ place, fs.follow (fs.start p) p.parts = .ok place ∧ fs.standing place = .directory := by
  rw [isDirectoryAt, placeOf, follow_append]
  cases followed : fs.follow (fs.start p) p.parts with
  | error failure => simp [Except.bind]
  | ok place =>
    have ends : fs.follow place (if p.closed then ["."] else []) = .ok place ∨
        fs.standing place ≠ .directory ∧
          ∃ failure, fs.follow place (if p.closed then ["."] else []) = .error failure := by
      cases p.closed with
      | false => exact .inl rfl
      | true =>
        rw [if_pos rfl, follow_cons]
        cases fs.standing place <;> simp [follow]
    obtain same | ⟨other, failure, fails⟩ := ends
    · simpa [Except.bind, same] using isOk_entriesOf
    · simp [Except.bind, fails, other]

theorem isDirectoryAt_of_makeDirectory {made : FileSystem} (done : fs.makeDirectory p = .ok made) :
    made.isDirectoryAt p = true := by
  obtain ⟨place, name, leads, free, workDir, same⟩ := makeDirectory_eq_ok done
  have added : made.standing (place ++ [name]) = .directory := by rw [same, Function.update_self]
  have keeps : Keeps fs made := keeps_of_update (by simp [free]) (by simp) same
  have start : made.start p = fs.start p := by rw [FileSystem.start, FileSystem.start, workDir]
  exact isDirectoryAt_iff.mpr
    ⟨place ++ [name], start ▸ leads.follow keeps (by simp [added]), added⟩

theorem makeDirectory_of_isDirectoryAt (there : fs.isDirectoryAt p = true) :
    fs.makeDirectory p = .error .alreadyExists := by
  obtain ⟨place, followed, directory⟩ := isDirectoryAt_iff.mp there
  cases last : p.parts.getLast? with
  | none => simp [makeDirectory, last]
  | some name =>
    have parts : p.parts = p.parts.dropLast ++ [name] :=
      (List.dropLast_append_getLast? name last).symm
    rw [parts, follow_append] at followed
    obtain ⟨above, reached, followed⟩ := bind_eq_ok followed
    have parent : fs.standing above = .directory := by
      rw [follow_cons] at followed
      cases here : fs.standing above with
      | directory => rfl
      | _ => simp [here] at followed
    obtain ⟨entries, opened, inside⟩ := parentPlace_of_directory reached parent
    rw [makeDirectory, last]
    simp only [opened, bind, Except.bind]
    by_cases named : name = "." ∨ name = ".."
    · rw [if_pos named]
    · obtain ⟨dot, up⟩ := not_or.mp named
      rw [follow, inside] at followed
      simp only [bind, Except.bind, if_neg dot, if_neg up] at followed
      rw [if_neg named]
      split_ifs at followed ⊢ with long taken
      · rfl

theorem makeMissing_of_isDirectoryAt (fuel : Nat) (there : fs.isDirectoryAt p = true) :
    makeMissing (fuel + 1) fs p = (fs, .ok ()) := by
  rw [makeMissing, makeDirectory_of_isDirectoryAt there]
  simp [there]

theorem makeDirectories_of_isDirectoryAt (parsed : path s = .ok p)
    (there : fs.isDirectoryAt p = true) : fs.makeDirectories s = (fs, .ok ()) := by
  have known := makeMissing_of_isDirectoryAt p.parts.length there
  rw [makeDirectories]
  by_cases empty : s.isEmpty = true
  · rw [if_pos empty]
  · rw [if_neg empty, parsed]
    exact known

theorem isDirectoryAt_of_tolerated {made : FileSystem} {failure : Failure}
    (done : (fs, if fs.isDirectoryAt p then .ok () else .error failure) = (made, Except.ok ())) :
    made.isDirectoryAt p = true := by
  obtain ⟨rfl, done⟩ := Prod.mk.inj done
  by_contra gone
  simp [gone] at done

theorem isDirectoryAt_of_makeMissing {fuel : Nat} {made : FileSystem}
    (done : makeMissing (fuel + 1) fs p = (made, .ok ())) :
    p.isEmpty = true ∨ made.isDirectoryAt p = true := by
  rw [makeMissing] at done
  by_cases empty : p.isEmpty = true
  · exact .inl empty
  · refine .inr ?_
    rw [if_neg empty] at done
    cases first : fs.makeDirectory p with
    | ok found =>
      obtain ⟨rfl, -⟩ := Prod.mk.inj (first ▸ done)
      exact isDirectoryAt_of_makeDirectory first
    | error failure =>
      cases failure with
      | notFound =>
        rw [first] at done
        obtain ⟨above, result, tried⟩ :
            ∃ above result, makeMissing fuel fs p.parent = (above, result) := ⟨_, _, rfl⟩
        rw [tried] at done
        cases result with
        | error failure => cases done
        | ok =>
          cases second : above.makeDirectory p with
          | ok found =>
            simp only [second, Prod.mk.injEq, and_true] at done
            exact done ▸ isDirectoryAt_of_makeDirectory second
          | error failure =>
            simp only [second] at done
            exact isDirectoryAt_of_tolerated done
      | _ =>
        simp only [first] at done
        exact isDirectoryAt_of_tolerated done

/-- Once directories have been made, to make them again changes nothing, also after the file system
has grown. -/
theorem makeDirectories_again {made : FileSystem} (done : fs.makeDirectories s = (made, .ok ()))
    (keeps : Keeps made later) (workDir : later.workDir = made.workDir) :
    later.makeDirectories s = (later, .ok ()) := by
  rw [makeDirectories] at done ⊢
  by_cases empty : s.isEmpty = true
  · rw [if_pos empty]
  · rw [if_neg empty] at done ⊢
    cases parsed : path s with
    | error failure => simp [parsed] at done
    | ok p =>
      simp only [parsed] at done
      obtain none | there := isDirectoryAt_of_makeMissing done
      · simp [makeMissing, none]
      · obtain ⟨place, followed, directory⟩ := isDirectoryAt_iff.mp there
        have start : later.start p = made.start p := by
          rw [FileSystem.start, FileSystem.start, workDir]
        exact makeMissing_of_isDirectoryAt _ (isDirectoryAt_iff.mpr
          ⟨place, start ▸ keeps.follow followed, keeps.directory place directory⟩)

end Directories

end FileSystem

end LexicalReport.Files
