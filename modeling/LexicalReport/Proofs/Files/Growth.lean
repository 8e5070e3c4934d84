import LexicalReport.Proofs.Files.Standing
import Mathlib.Data.List.DropRight

/-! How a file system grows. To make directories adds directories where nothing stood, each of them
where a beginning of the path leads; to write a file changes one place. Where a path led before, it
still leads afterwards. -/

namespace LexicalReport.Files

namespace Path

theorem dropDots_begins (absolute : Bool) (parts : List String) :
    dropDots absolute parts <+: parts := by
  rw [dropDots]
  split
  · exact List.take_prefix 1 parts
  · exact List.rdropWhile_prefix _ parts

theorem parent_parts_begins (p : Path) : p.parent.parts <+: p.parts :=
  (dropDots_begins _ _).trans ((List.dropLast_prefix _).trans (dropDots_begins _ _))

end Path

namespace FileSystem

variable {fs later : FileSystem} {place start parts : List String} {p : Path} {name : String}

/-- What stood still stands, and directories are still directories. -/
structure Keeps (fs later : FileSystem) : Prop where
  directory : ∀ place, fs.standing place = .directory → later.standing place = .directory
  nothing : ∀ place, later.standing place = .nothing → fs.standing place = .nothing

theorem Keeps.refl (fs : FileSystem) : Keeps fs fs :=
  ⟨fun _ => id, fun _ => id⟩

theorem keeps_of_update {what : Standing} (free : fs.standing place ≠ .directory)
    (solid : what ≠ .nothing) (same : later.standing = Function.update fs.standing place what) :
    Keeps fs later := by
  constructor
  · intro other directory
    have apart : other ≠ place := by
      rintro rfl
      exact free directory
    rw [same, Function.update_of_ne apart, directory]
  · intro other none
    by_cases here : other = place
    · subst here
      rw [same, Function.update_self] at none
      exact absurd none solid
    · rwa [same, Function.update_of_ne here] at none

theorem Keeps.follow (keeps : Keeps fs later) {found : List String}
    (leads : fs.follow place parts = .ok found) : later.follow place parts = .ok found := by
  induction parts generalizing place with
  | nil => exact leads
  | cons part rest ih =>
    rw [follow_cons] at leads ⊢
    cases here : fs.standing place with
    | directory =>
      rw [keeps.directory place here]
      simp only [here] at leads ⊢
      split_ifs at leads ⊢ with dot up long gone gone'
      · exact ih leads
      · exact ih leads
      · exact absurd (keeps.nothing _ gone) gone'
      · exact ih leads
    | _ => simp [here] at leads

/-- The path leads to a name in a directory, whether anything has that name or not. -/
structure Leads (fs : FileSystem) (p : Path) (place : List String) (name : String) : Prop where
  last : p.parts.getLast? = some name
  above : fs.follow (fs.start p) p.parts.dropLast = .ok place
  parent : fs.standing place = .directory
  named : ¬ (name = "." ∨ name = "..")
  short : ¬ nameLimit < name.utf8ByteSize

theorem Leads.follow (leads : Leads fs p place name) (keeps : Keeps fs later)
    (there : later.standing (place ++ [name]) ≠ .nothing) :
    later.follow (fs.start p) p.parts = .ok (place ++ [name]) := by
  obtain ⟨dot, up⟩ := not_or.mp leads.named
  have parts : p.parts = p.parts.dropLast ++ [name] :=
    (List.dropLast_append_getLast? name leads.last).symm
  rw [parts, follow_append, keeps.follow leads.above, Except.bind, follow_cons,
    keeps.directory place leads.parent]
  simp [dot, up, leads.short, there, FileSystem.follow]

theorem bind_eq_ok {α β : Type} {first : Except Failure α} {next : α → Except Failure β}
    {result : β} (done : first >>= next = .ok result) :
    ∃ value, first = .ok value ∧ next value = .ok result := by
  cases first with
  | error failure => cases done
  | ok value => exact ⟨value, rfl, done⟩

theorem parentPlace_eq_ok {entries : Entries} (found : fs.parentPlace p = .ok (place, entries)) :
    fs.follow (fs.start p) p.parts.dropLast = .ok place ∧ fs.entriesOf place = .ok entries := by
  obtain ⟨reached, above, found⟩ := bind_eq_ok found
  obtain ⟨known, inside, found⟩ := bind_eq_ok found
  cases found
  exact ⟨above, inside⟩

theorem standing_of_find? {entries : Entries} (found : fs.entriesOf place = .ok entries)
    (name : String) : fs.standing (place ++ [name]) = .ofNode? (entries.find? name) := by
  obtain ⟨known, same, -, next⟩ := entriesOf_of_directory (standing_of_entriesOf found)
  obtain rfl : known = entries := by simpa [same] using found
  rw [standing, next]

theorem makeDirectory_eq_ok {made : FileSystem} (done : fs.makeDirectory p = .ok made) :
    ∃ place name, Leads fs p place name ∧ fs.standing (place ++ [name]) = .nothing ∧
      made.workDir = fs.workDir ∧
      made.standing = Function.update fs.standing (place ++ [name]) .directory := by
  rw [makeDirectory] at done
  cases last : p.parts.getLast? with
  | none => simp [last] at done
  | some name =>
    rw [last] at done
    obtain ⟨⟨place, entries⟩, above, done⟩ := bind_eq_ok done
    obtain ⟨reached, inside⟩ := parentPlace_eq_ok above
    dsimp only at done
    split_ifs at done with named long taken
    obtain rfl := Except.ok.inj done
    have free : fs.standing (place ++ [name]) = .nothing := by
      rw [standing_of_find? inside, Option.not_isSome_iff_eq_none.mp taken]
      rfl
    have parent := standing_of_entriesOf inside
    exact ⟨place, name, ⟨last, reached, parent, named, long⟩, free, rfl,
      standing_put Node.isBare_directory parent (by simp [free])⟩

theorem path_eq_ok {s : String} (parsed : path s = .ok p) : p = .ofText s := by
  unfold path at parsed
  split_ifs at parsed
  exact (Except.ok.inj parsed).symm

theorem parentPlace_of_directory (above : fs.follow (fs.start p) p.parts.dropLast = .ok place)
    (parent : fs.standing place = .directory) :
    ∃ entries, fs.parentPlace p = .ok (place, entries) ∧ fs.entriesOf place = .ok entries := by
  obtain ⟨entries, found, -, -⟩ := entriesOf_of_directory parent
  refine ⟨entries, ?_, found⟩
  rw [parentPlace, above]
  simp only [bind, Except.bind, found, pure, Except.pure]

structure Writes (fs : FileSystem) (s : String) (place : List String) (name : String) : Prop where
  parsed : path s = .ok (.ofText s)
  leads : Leads fs (.ofText s) place name
  opened : (Path.ofText s).closed = false
  free : fs.standing (place ++ [name]) ≠ .directory

def putFile (fs : FileSystem) (place : List String) (content : ByteArray) : FileSystem :=
  { fs with root := fs.root.putAt (.file content) place }

theorem writeBytes_eq_ok_iff {written : FileSystem} {s : String} {content : ByteArray} :
    fs.writeBytes s content = .ok written ↔
      ∃ place name, Writes fs s place name ∧ written = fs.putFile (place ++ [name]) content := by
  constructor
  · intro done
    rw [writeBytes] at done
    obtain ⟨p, parsed, done⟩ := bind_eq_ok done
    obtain rfl := path_eq_ok parsed
    cases last : (Path.ofText s).parts.getLast? with
    | none => simp [last] at done
    | some name =>
      rw [last] at done
      obtain ⟨⟨place, entries⟩, above, done⟩ := bind_eq_ok done
      obtain ⟨reached, inside⟩ := parentPlace_eq_ok above
      dsimp only at done
      split_ifs at done with named long
      obtain ⟨dot, up, closed⟩ : name ≠ "." ∧ name ≠ ".." ∧ (Path.ofText s).closed = false := by
        simpa [not_or] using named
      have leads : Leads fs (.ofText s) place name :=
        ⟨last, reached, standing_of_entriesOf inside, by simp [dot, up], long⟩
      obtain ⟨free, put⟩ : fs.standing (place ++ [name]) ≠ .directory ∧
          fs.putFile (place ++ [name]) content = written := by
        rw [standing_of_find? inside]
        rcases taken : entries.find? name with _ | old | below <;>
          simp_all [putFile, Standing.ofNode?, pure, Except.pure]
      exact ⟨place, name, ⟨parsed, leads, closed, free⟩, put.symm⟩
  · rintro ⟨place, name, writes, rfl⟩
    obtain ⟨entries, above, inside⟩ :=
      parentPlace_of_directory writes.leads.above writes.leads.parent
    obtain ⟨dot, up⟩ := not_or.mp writes.leads.named
    have free := writes.free
    rw [standing_of_find? inside] at free
    rw [writeBytes, writes.parsed]
    simp only [bind, Except.bind, writes.leads.last, above, dot, up, writes.opened,
      writes.leads.short, Bool.false_eq_true, or_self, if_false]
    rcases taken : entries.find? name with _ | old | below
    · rfl
    · rfl
    · simp [taken, Standing.ofNode?] at free

section Writes

variable {s : String} (writes : Writes fs s place name) (content : ByteArray)
include writes

theorem Writes.standing_eq : (fs.putFile (place ++ [name]) content).standing =
    Function.update fs.standing (place ++ [name]) (.file content) :=
  standing_put (Node.isBare_file content) writes.leads.parent writes.free

theorem Writes.keeps : Keeps fs (fs.putFile (place ++ [name]) content) :=
  keeps_of_update writes.free (by simp) (writes.standing_eq content)

theorem Writes.place_eq :
    (fs.putFile (place ++ [name]) content).place s = .ok (place ++ [name]) := by
  simp only [FileSystem.place, writes.parsed, placeOf, writes.opened, bind, Except.bind,
    Bool.false_eq_true, if_false, List.append_nil]
  exact writes.leads.follow (writes.keeps content) (by simp [writes.standing_eq])

end Writes

/-- The file system has grown by directories alone, where nothing stood and where the beginnings of
the parts lead. -/
structure Widened (start parts : List String) (fs wider : FileSystem) : Prop where
  workDir : wider.workDir = fs.workDir
  places : ∀ place, wider.standing place = fs.standing place ∨
    fs.standing place = .nothing ∧ wider.standing place = .directory ∧
      ∃ n, wider.follow start (parts.take n) = .ok place

theorem Widened.refl (start parts : List String) (fs : FileSystem) : Widened start parts fs fs :=
  ⟨rfl, fun _ => .inl rfl⟩

theorem Widened.keeps {wider : FileSystem} (widened : Widened start parts fs wider) :
    Keeps fs wider := by
  constructor
  · intro place directory
    rcases widened.places place with same | ⟨-, added, -⟩
    · rw [same, directory]
    · exact added
  · intro place none
    rcases widened.places place with same | ⟨-, added, -⟩
    · rw [← same, none]
    · simp [added] at none

theorem Widened.trans {middle wider : FileSystem} (first : Widened start parts fs middle)
    (second : Widened start parts middle wider) : Widened start parts fs wider := by
  refine ⟨second.workDir.trans first.workDir, fun place => ?_⟩
  rcases second.places place with same | ⟨none, added, way⟩
  · rcases first.places place with before | ⟨none, added, n, way⟩
    · exact .inl (same.trans before)
    · exact .inr ⟨none, same.trans added, n, second.keeps.follow way⟩
  · exact .inr ⟨first.keeps.nothing place none, added, way⟩

theorem widened_makeDirectory {made : FileSystem} (inside : p.parts <+: parts)
    (begins : fs.start p = start) (done : fs.makeDirectory p = .ok made) :
    Widened start parts fs made := by
  obtain ⟨place, name, leads, free, workDir, same⟩ := makeDirectory_eq_ok done
  have keeps : Keeps fs made := keeps_of_update (by simp [free]) (by simp) same
  refine ⟨workDir, fun other => ?_⟩
  by_cases here : other = place ++ [name]
  · subst here
    have added : made.standing (place ++ [name]) = .directory := by rw [same, Function.update_self]
    refine .inr ⟨free, added, p.parts.length, ?_⟩
    rw [← List.prefix_iff_eq_take.mp inside, ← begins]
    exact leads.follow keeps (by simp [added])
  · rw [same, Function.update_of_ne here]
    exact .inl rfl

theorem widened_makeMissing (fuel : Nat) (inside : p.parts <+: parts)
    (begins : fs.start p = start) : Widened start parts fs (makeMissing fuel fs p).1 := by
  induction fuel generalizing p with
  | zero => exact .refl start parts fs
  | succ fuel ih =>
    rw [makeMissing]
    by_cases empty : p.isEmpty = true
    · rw [if_pos empty]
      exact .refl start parts fs
    · rw [if_neg empty]
      cases first : fs.makeDirectory p with
      | ok made => exact widened_makeDirectory inside begins first
      | error failure =>
        cases failure with
        | notFound =>
          have grown := ih ((Path.parent_parts_begins p).trans inside) begins
          obtain ⟨above, result, tried⟩ :
              ∃ above result, makeMissing fuel fs p.parent = (above, result) := ⟨_, _, rfl⟩
          rw [tried] at grown ⊢
          cases result with
          | error failure => exact grown
          | ok =>
            cases second : above.makeDirectory p with
            | error failure => simpa [second] using grown
            | ok made =>
              have same : above.start p = start := by
                rw [FileSystem.start, grown.workDir]
                exact begins
              simpa [second] using grown.trans (widened_makeDirectory inside same second)
        | _ => exact .refl start parts fs

theorem widened_makeDirectories (fs : FileSystem) (s : String) :
    Widened (fs.start (.ofText s)) (Path.ofText s).parts fs (fs.makeDirectories s).1 := by
  rw [makeDirectories]
  split_ifs
  · exact .refl _ _ fs
  · cases parsed : path s with
    | error failure => exact .refl _ _ fs
    | ok p =>
      obtain rfl := path_eq_ok parsed
      exact widened_makeMissing _ List.prefix_rfl rfl

end FileSystem

end LexicalReport.Files
