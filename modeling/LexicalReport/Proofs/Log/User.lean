import LexicalReport.Log.User
import LexicalReport.Proofs.Files.Joining
import LexicalReport.Proofs.Log.Writing
import Mathlib.Data.List.ReduceOption

/-! The users that logs are written for. A user that is resolved is a name without blanks and
without the characters that separate the parts of a path, and it is the first of the names that is
usable. So the file of its log is an entry of the log directory itself. -/

namespace LexicalReport.Log

open Files (FileSystem Path)

structure IsUser (user : String) : Prop where
  solid : user ≠ ""
  kept : ∀ c ∈ user.toList, Text.isBlank c = false ∧ c ≠ '/' ∧ c ≠ '\\' ∧ c ≠ ':'

def firstUsable (names : List (Option String)) : String :=
  ((names.reduceOption.map sanitize).find? (· ≠ "")).getD fallbackUser

section Users

variable {raw user : String}

theorem isKept_iff {c : Char} :
    isKept c = true ↔ Text.isBlank c = false ∧ c ≠ '/' ∧ c ≠ '\\' ∧ c ≠ ':' := by
  simp [isKept, and_assoc]

theorem toList_sanitize (raw : String) : (sanitize raw).toList = raw.toList.filter isKept := by
  rw [sanitize, String.toList_ofList]

theorem isUser_sanitize (left : sanitize raw ≠ "") : IsUser (sanitize raw) := by
  refine ⟨left, fun c inside => ?_⟩
  rw [toList_sanitize, List.mem_filter] at inside
  exact isKept_iff.mp inside.2

theorem sanitize_eq_self (isUser : IsUser user) : sanitize user = user := by
  have all : user.toList.filter isKept = user.toList :=
    List.filter_eq_self.mpr fun c inside => isKept_iff.mpr (isUser.kept c inside)
  rw [sanitize, all, String.ofList_toList]

theorem usable?_eq_some_iff {given : Option String} : usable? given = some user ↔
    ∃ raw, given = some raw ∧ sanitize raw = user ∧ user ≠ "" := by
  rw [usable?]
  cases given with
  | none => simp
  | some raw => simp only [Option.map_some, Option.filter_eq_some_iff, Option.some.injEq,
      bne_iff_ne, exists_eq_left']

theorem firstUsable_nil : firstUsable [] = fallbackUser :=
  rfl

theorem firstUsable_cons (given : Option String) (others : List (Option String)) :
    firstUsable (given :: others) = (usable? given).getD (firstUsable others) := by
  cases given with
  | none => rfl
  | some raw =>
    rw [firstUsable, List.reduceOption_cons_of_some, List.map_cons, List.find?_cons, usable?,
      Option.map_some, Option.filter_some]
    by_cases left : sanitize raw = ""
    · rw [left]
      rfl
    · simp only [ne_eq, left, not_false_eq_true, decide_true, bne_iff_ne, if_true, Option.getD_some]

theorem resolveUser_eq (configured versionControl : Option String) :
    resolveUser configured versionControl = firstUsable [configured, versionControl] := by
  rw [firstUsable_cons, firstUsable_cons, firstUsable_nil, resolveUser, Option.getD_or]

theorem isUser_fallback : IsUser fallbackUser := by
  have all : fallbackUser.toList.all isKept = true := by decide +kernel
  exact ⟨by decide, fun c inside => isKept_iff.mp (List.all_eq_true.mp all c inside)⟩

theorem isUser_firstUsable (names : List (Option String)) : IsUser (firstUsable names) := by
  induction names with
  | nil => exact isUser_fallback
  | cons given others ih =>
    rw [firstUsable_cons]
    cases found : usable? given with
    | none => exact ih
    | some user =>
      obtain ⟨raw, -, rfl, left⟩ := usable?_eq_some_iff.mp found
      exact isUser_sanitize left

end Users

section Names

variable {user : String} {moment : Moment}

theorem not_mem_fileName {c : Char} (digit : c.isDigit = false)
    (other : c ∉ "lexico-+h.txt".toList) (whole : c ∉ user.toList) :
    c ∉ (fileName user moment).toList := by
  have stamp : c ∉ moment.stamp.toList := by
    intro inside
    rcases Moment.isDigit_or_sign_of_mem_stamp inside with number | rfl | rfl | rfl
    · rw [digit] at number
      cases number
    all_goals exact other (by decide)
  have begins : c ∉ "lexico-".toList :=
    fun inside => other (List.mem_append_left "+h.txt".toList inside)
  have ends : c ∉ ".txt".toList :=
    fun inside => other (List.mem_append_right "lexico-+h".toList inside)
  have dash : c ≠ '-' := by
    rintro rfl
    exact other (by decide)
  simp only [toList_fileName, List.mem_append, List.mem_cons, begins, whole, dash, stamp, ends,
    or_self, not_false_eq_true]

theorem slash_not_mem_fileName (whole : '/' ∉ user.toList) :
    '/' ∉ (fileName user moment).toList :=
  not_mem_fileName (by decide) (by decide) whole

theorem fileName_solid (user : String) (moment : Moment) : (fileName user moment).toList ≠ [] := by
  simp [toList_fileName]

theorem fileName_ne {text : String} (begins : text.toList.head? ≠ some 'l') :
    fileName user moment ≠ text := by
  rintro rfl
  exact begins (by rw [toList_fileName]; rfl)

theorem place_of_written {fs after : FileSystem} {reports : List Report} {directory path : String}
    (whole : '/' ∉ user.toList)
    (done : write fs reports directory user moment = (after, .ok path)) :
    ∃ place, after.follow (after.start (.ofText directory)) (Path.ofText directory).parts =
        .ok place ∧
      after.place path = .ok (place ++ [fileName user moment]) := by
  have parts := Path.ofText_join (fileName_solid user moment) (slash_not_mem_fileName whole)
    directory
  obtain ⟨made, -, ⟨failure, same⟩ | ⟨-, place, name, writes, same⟩⟩ :=
    write_cases fs reports directory user moment
  · cases done.symm.trans same
  · obtain ⟨rfl, found⟩ := Prod.mk.inj (done.symm.trans same)
    obtain rfl := Except.ok.inj found
    have last := writes.leads.last
    have above := writes.leads.above
    rw [parts, List.getLast?_concat] at last
    obtain rfl := Option.some.inj last
    have start : made.start (.ofText (Path.join directory (fileName user moment))) =
        made.start (.ofText directory) := by
      rw [FileSystem.start, FileSystem.start, parts]
    rw [start, parts, List.dropLast_concat] at above
    exact ⟨place, (writes.keeps _).follow above, writes.place_eq _⟩

end Names

/-- The name of a log tells its user and its minute. The users that are resolved have no character
that must not be in a name, so their logs are entries of the log directory. -/
theorem fileName_apart_inside :
    (∀ (user other : String) (moment later : Moment),
      fileName user moment = fileName other later ↔ user = other ∧ moment.SameMinute later) ∧
    ∀ configured versionControl : Option String,
      let user := resolveUser configured versionControl
      IsUser user ∧ sanitize user = user ∧
        ∀ moment, Path.ofText (fileName user moment) = ⟨false, [fileName user moment], false⟩ ∧
          fileName user moment ≠ "." ∧ fileName user moment ≠ ".." ∧
          ∀ fs reports directory after path,
            write fs reports directory user moment = (after, .ok path) →
            ∃ place, after.follow (after.start (.ofText directory)) (Path.ofText directory).parts =
                .ok place ∧
              after.place path = .ok (place ++ [fileName user moment]) := by
  refine ⟨fun _ _ _ _ => fileName_inj, fun configured versionControl => ?_⟩
  intro user
  have isUser : IsUser user := by
    have first : user = firstUsable [configured, versionControl] := resolveUser_eq ..
    rw [first]
    exact isUser_firstUsable _
  have whole : '/' ∉ user.toList := fun inside => (isUser.kept _ inside).2.1 rfl
  refine ⟨isUser, sanitize_eq_self isUser, fun moment => ⟨?_, ?_, ?_, ?_⟩⟩
  · exact Path.ofText_whole (fileName_solid user moment) (slash_not_mem_fileName whole)
  · exact fileName_ne (by decide)
  · exact fileName_ne (by decide)
  · intro fs reports directory after path done
    exact place_of_written whole done

theorem fileName_apart_inside_slashes :
    let moment : Moment := ⟨-1, 3, 7, 9, 5, 59, 1500000000⟩
    let fs : FileSystem := ⟨[("logs", .directory [])], []⟩
    let name := "lexico-.-etc-07-03--0001-09h05.txt"
    resolveUser (some " /\\:") (some "./-e tc\n") = ".-etc" ∧
      (write fs [] "logs" ".-etc" moment).2 = .ok ("logs/" ++ name) ∧
      (write fs [] "logs" ".-etc" moment).1.place ("logs/" ++ name) = .ok ["logs", name] ∧
      fileName ".-etc" moment ≠ fileName ".-etc-07" ⟨1, 3, 7, 9, 5, 0, 0⟩ := by
  intro moment fs name
  have resolved : resolveUser (some " /\\:") (some "./-e tc\n") = ".-etc" := by decide +kernel
  have done : (write fs [] "logs" ".-etc" moment).2 = .ok ("logs/" ++ name) := by decide +kernel
  obtain ⟨apart, inside⟩ := fileName_apart_inside
  obtain ⟨-, -, child⟩ := inside (some " /\\:") (some "./-e tc\n")
  rw [resolved] at child
  obtain ⟨place, above, found⟩ := (child moment).2.2.2 fs [] "logs" _ _ (eq_of_result done)
  have logs : (write fs [] "logs" ".-etc" moment).1.follow
      ((write fs [] "logs" ".-etc" moment).1.start (.ofText "logs")) (Path.ofText "logs").parts =
        .ok ["logs"] := by decide +kernel
  have named : fileName ".-etc" moment = name := by decide +kernel
  rw [logs] at above
  obtain rfl := Except.ok.inj above
  rw [named] at found
  exact ⟨resolved, done, found, fun same => absurd ((apart _ _ _ _).mp same).1 (by decide)⟩

end LexicalReport.Log
