import LexicalReport.Log.Writing
import LexicalReport.Proofs.Files.Repetition
import LexicalReport.Proofs.Log.Naming

/-! What the writing of a log changes. Besides the log itself there may be new directories on the
way to it, and all else stays as it is, whether the writing succeeds or not. A log that is written
reads back, and one that is written again within its minute leaves what it would have left without
the first. -/

namespace LexicalReport.Log

open Files (FileSystem Path)

/-- The places that the writing of a log may change: that of the log, and those on the way to its
directory at which nothing stood before and a directory stands afterwards. -/
inductive Touched (before after : FileSystem) (directory name : String) (place : List String) : Prop
  | log (found : after.place (Path.join directory name) = .ok place)
  | directory (missing : before.standing place = .nothing)
      (made : after.standing place = .directory)
      (way : ∃ n, after.follow (after.start (.ofText directory))
        ((Path.ofText directory).parts.take n) = .ok place)

/-- Nothing stood at the place, and a directory stands there that had to be made on the way to
another one. -/
structure Opened (before after : FileSystem) (directory : String) (place : List String) : Prop where
  missing : before.standing place = .nothing
  made : after.standing place = .directory
  way : ∃ n, after.follow (after.start (.ofText directory))
    ((Path.ofText directory).parts.take n) = .ok place

structure Written (before after : FileSystem) (directory path content : String)
    (log : List String) : Prop where
  workDir : after.workDir = before.workDir
  place : after.place path = .ok log
  reads : after.readText path = .ok content
  files : ∀ place, place ≠ log → ∀ bytes,
    after.standing place = .file bytes ↔ before.standing place = .file bytes
  others : ∀ place, place ≠ log →
    after.standing place = before.standing place ∨ Opened before after directory place

structure Unwritten (before after : FileSystem) (directory : String) : Prop where
  workDir : after.workDir = before.workDir
  files : ∀ place bytes,
    after.standing place = .file bytes ↔ before.standing place = .file bytes
  others : ∀ place,
    after.standing place = before.standing place ∨ Opened before after directory place

section Opened

variable {fs made after : FileSystem} {directory : String} {place : List String}

theorem opened_of_widened
    (widened : FileSystem.Widened (fs.start (.ofText directory)) (Path.ofText directory).parts fs
      made)
    (keeps : FileSystem.Keeps made after) (workDir : after.workDir = made.workDir)
    (same : after.standing place = made.standing place) :
    after.standing place = fs.standing place ∨ Opened fs after directory place := by
  rcases widened.places place with old | ⟨missing, added, n, way⟩
  · exact .inl (same.trans old)
  · have start : after.start (.ofText directory) = fs.start (.ofText directory) := by
      rw [FileSystem.start, FileSystem.start, workDir, widened.workDir]
    exact .inr ⟨missing, same.trans added, n, start ▸ keeps.follow way⟩

theorem Opened.touched (opened : Opened fs after directory place) (name : String) :
    Touched fs after directory name place :=
  .directory opened.missing opened.made opened.way

theorem file_iff_of_opened
    (opened : after.standing place = fs.standing place ∨ Opened fs after directory place)
    (bytes : ByteArray) : after.standing place = .file bytes ↔ fs.standing place = .file bytes := by
  rcases opened with same | opened
  · rw [same]
  · simp [opened.missing, opened.made]

end Opened

section Write

variable (fs : FileSystem) (reports : List Report) (directory user : String) (moment : Moment)

/-- The writing of a log makes directories, and then it ends there or puts the log. -/
theorem write_cases : ∃ made,
    FileSystem.Widened (fs.start (.ofText directory)) (Path.ofText directory).parts fs made ∧
    ((∃ failure, write fs reports directory user moment = (made, .error failure)) ∨
      fs.makeDirectories directory = (made, .ok ()) ∧
        ∃ place name, made.Writes (Path.join directory (fileName user moment)) place name ∧
          write fs reports directory user moment =
            (made.putFile (place ++ [name]) (text reports user moment).toUTF8,
              .ok (Path.join directory (fileName user moment)))) := by
  have widened := FileSystem.widened_makeDirectories fs directory
  obtain ⟨made, result, tried⟩ :
      ∃ made result, fs.makeDirectories directory = (made, result) := ⟨_, _, rfl⟩
  rw [tried] at widened
  refine ⟨made, widened, ?_⟩
  rw [write, tried]
  cases result with
  | error failure => exact .inl ⟨_, rfl⟩
  | ok =>
    dsimp only
    cases done : made.writeText (Path.join directory (fileName user moment))
        (text reports user moment) with
    | error failure => exact .inl ⟨_, rfl⟩
    | ok written =>
      obtain ⟨place, name, writes, rfl⟩ := FileSystem.writeBytes_eq_ok_iff.mp done
      exact .inr ⟨rfl, place, name, writes, rfl⟩

theorem write_touches (place : List String) :
    (write fs reports directory user moment).1.standing place = fs.standing place ∨
      Touched fs (write fs reports directory user moment).1 directory (fileName user moment)
        place := by
  obtain ⟨made, widened, ⟨failure, same⟩ | ⟨-, above, name, writes, same⟩⟩ :=
    write_cases fs reports directory user moment
  · rw [same]
    exact (opened_of_widened widened (.refl made) rfl rfl).imp_right (·.touched _)
  · rw [same]
    by_cases here : place = above ++ [name]
    · exact .inr (.log (here ▸ writes.place_eq _))
    · refine (opened_of_widened widened (writes.keeps _) rfl ?_).imp_right (·.touched _)
      rw [writes.standing_eq, Function.update_of_ne here]

variable {fs reports directory user moment}

theorem unwritten_of_error {after : FileSystem} {failure : Failure}
    (failed : write fs reports directory user moment = (after, .error failure)) :
    Unwritten fs after directory := by
  obtain ⟨made, widened, ⟨other, same⟩ | ⟨-, above, name, writes, same⟩⟩ :=
    write_cases fs reports directory user moment
  · obtain ⟨rfl, -⟩ := Prod.mk.inj (failed.symm.trans same)
    have opened (place : List String) :
        after.standing place = fs.standing place ∨ Opened fs after directory place :=
      opened_of_widened widened (.refl after) rfl rfl
    exact ⟨widened.workDir, fun place => file_iff_of_opened (opened place), opened⟩
  · cases failed.symm.trans same

theorem written_of_ok {after : FileSystem} {path : String}
    (done : write fs reports directory user moment = (after, .ok path)) :
    path = Path.join directory (fileName user moment) ∧
      ∃ log, Written fs after directory path (text reports user moment) log := by
  obtain ⟨made, widened, ⟨failure, same⟩ | ⟨-, above, name, writes, same⟩⟩ :=
    write_cases fs reports directory user moment
  · cases done.symm.trans same
  · obtain ⟨rfl, found⟩ := Prod.mk.inj (done.symm.trans same)
    obtain rfl := Except.ok.inj found
    refine ⟨rfl, above ++ [name], ?_⟩
    have opened {place : List String} (other : place ≠ above ++ [name]) :=
      opened_of_widened widened (writes.keeps (text reports user moment).toUTF8) rfl
        (by rw [writes.standing_eq, Function.update_of_ne other])
    exact {
      workDir := widened.workDir
      place := writes.place_eq _
      reads := FileSystem.readText_of_file (writes.place_eq _)
        (by rw [writes.standing_eq, Function.update_self])
      files := fun place other => file_iff_of_opened (opened other)
      others := fun place other => opened other }

theorem write_again {first : FileSystem} {path : String}
    (done : write fs reports directory user moment = (first, .ok path)) (others : List Report)
    {later : Moment} (minute : moment.SameMinute later) :
    write first others directory user later = write fs others directory user later ∧
      (write fs others directory user later).2 = .ok path := by
  obtain ⟨made, -, ⟨failure, same⟩ | ⟨tried, place, name, writes, same⟩⟩ :=
    write_cases fs reports directory user moment
  · cases done.symm.trans same
  · obtain ⟨rfl, found⟩ := Prod.mk.inj (done.symm.trans same)
    obtain rfl := Except.ok.inj found
    have named : fileName user later = fileName user moment := (fileName_congr minute).symm
    have once (content : String) :
        made.writeText (Path.join directory (fileName user moment)) content =
          .ok (made.putFile (place ++ [name]) content.toUTF8) :=
      FileSystem.writeBytes_eq_ok_iff.mpr ⟨place, name, writes, rfl⟩
    have fresh : write fs others directory user later =
        (made.putFile (place ++ [name]) (text others user later).toUTF8,
          .ok (Path.join directory (fileName user moment))) := by
      simp only [write, tried, named, once]
    have known := FileSystem.makeDirectories_again tried
      (writes.keeps (text reports user moment).toUTF8) rfl
    have twice := (FileSystem.writeBytes_again (once (text reports user moment))
      (text others user later).toUTF8).trans (once (text others user later))
    have second : write (made.putFile (place ++ [name]) (text reports user moment).toUTF8) others
        directory user later = (made.putFile (place ++ [name]) (text others user later).toUTF8,
          .ok (Path.join directory (fileName user moment))) := by
      simp only [write, known, named, FileSystem.writeText, twice]
    exact ⟨second.trans fresh.symm, by rw [fresh]⟩

end Write

-- For runs on fixed inputs. The outcome is a variable, so that its files are not computed.
theorem eq_of_result {outcome : FileSystem × Except Failure String}
    {result : Except Failure String} (found : outcome.2 = result) : outcome = (outcome.1, result) :=
  Prod.ext rfl found

/-- If a log is written, its path leads to its text, and apart from it there are at most new
directories on the way to its directory; another log of that user and minute is then written just
as without it. If a log is not written, there are at most such directories. -/
theorem write_effect (fs : FileSystem) (reports : List Report) (directory user : String)
    (moment : Moment) :
    (∀ after path, write fs reports directory user moment = (after, .ok path) →
      path = Path.join directory (fileName user moment) ∧
      (∃ log, Written fs after directory path (text reports user moment) log) ∧
      ∀ others later, moment.SameMinute later →
        write after others directory user later = write fs others directory user later ∧
          (write fs others directory user later).2 = .ok path) ∧
    ∀ after failure, write fs reports directory user moment = (after, .error failure) →
      Unwritten fs after directory := by
  refine ⟨fun after path done => ?_, fun after failure failed => unwritten_of_error failed⟩
  obtain ⟨named, written⟩ := written_of_ok done
  exact ⟨named, written, fun others later minute => write_again done others minute⟩

theorem write_effect_new_directories :
    let fs : FileSystem := ⟨[("a", .file "x".toUTF8)], []⟩
    let moment : Moment := ⟨2025, 3, 7, 9, 5, 0, 0⟩
    let later : Moment := ⟨2025, 3, 7, 9, 5, 59, 1500000000⟩
    let report : Report := ⟨"m.go", [⟨.identifier, "x", 1, 1⟩], []⟩
    let path := "b/c/lexico-ada-07-03-2025-09h05.txt"
    let first := (write fs [report] "b/c" "ada" moment).1
    (write fs [report] "b/c" "ada" moment).2 = .ok path ∧
      first.readText path = .ok (text [report] "ada" moment) ∧
      moment.SameMinute later ∧
      write first [] "b/c" "ada" later = write fs [] "b/c" "ada" later ∧
      (write fs [report] "a/c" "ada" moment).2 = .error (.directoryNotMade "a/c" .notDirectory) ∧
      Unwritten fs (write fs [report] "a/c" "ada" moment).1 "a/c" := by
  intro fs moment later report path first
  have done : (write fs [report] "b/c" "ada" moment).2 = .ok path := by decide +kernel
  have failed : (write fs [report] "a/c" "ada" moment).2 =
      .error (.directoryNotMade "a/c" .notDirectory) := by decide +kernel
  have minute : moment.SameMinute later := by decide
  obtain ⟨-, ⟨log, written⟩, again⟩ :=
    (write_effect fs [report] "b/c" "ada" moment).1 _ _ (eq_of_result done)
  exact ⟨done, written.reads, minute, (again [] later minute).1, failed,
    (write_effect fs [report] "a/c" "ada" moment).2 _ _ (eq_of_result failed)⟩

end LexicalReport.Log
