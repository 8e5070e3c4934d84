import LexicalReport.Proofs.Files.Repetition
import LexicalReport.Proofs.Log.User

/-! What a user can do to the writing of a log. A user that is resolved has no slash, so apart from
NUL, which no file name may have, its log is an entry of the log directory under a name that is in
order. The name carries the whole user. It is written unless it is longer than a file name may be,
or the path with it longer than a path may be. -/

namespace LexicalReport.Log

open Files (FileSystem Path IsName)

section Names

variable {user : String} {moment : Moment}

theorem utf8ByteSize_fileName (user : String) (moment : Moment) :
    (fileName user moment).utf8ByteSize =
      user.utf8ByteSize + moment.stamp.utf8ByteSize + 12 := by
  have fixed : "lexico".utf8ByteSize = 6 ∧ "-".utf8ByteSize = 1 ∧ ".txt".utf8ByteSize = 4 := by
    decide +kernel
  simp only [fileName, fileStem, String.utf8ByteSize_append, fixed]
  omega

theorem isName_fileName (whole : '/' ∉ user.toList) (plain : '\x00' ∉ user.toList) :
    IsName (fileName user moment) where
  solid := fileName_solid user moment
  whole := slash_not_mem_fileName whole
  plain := not_mem_fileName (by decide) (by decide) plain
  here := fileName_ne (by decide)
  above := fileName_ne (by decide)

end Names

theorem isUser_resolveUser (configured versionControl : Option String) :
    IsUser (resolveUser configured versionControl) := by
  rw [resolveUser_eq]
  exact isUser_firstUsable _

theorem write_into_directory {fs : FileSystem} {directory user : String} {moment : Moment}
    {place : List String} (reached : fs.place directory = .ok place)
    (there : fs.standing place = .directory) (isName : IsName (fileName user moment))
    (free : fs.standing (place ++ [fileName user moment]) ≠ .directory) (reports : List Report) :
    write fs reports directory user moment =
      if FileSystem.Fits directory [fileName user moment] then
        (fs.putFile (place ++ [fileName user moment]) (text reports user moment).toUTF8,
          .ok (Path.join directory (fileName user moment)))
      else (fs, .error (.fileNotWritten (Path.join directory (fileName user moment))
        .nameTooLong)) := by
  obtain ⟨p, parsed, -⟩ := FileSystem.bind_eq_ok reached
  have followed := FileSystem.follow_parts reached
  obtain rfl := FileSystem.path_eq_ok parsed
  have made := FileSystem.makeDirectories_of_isDirectoryAt parsed
    (FileSystem.isDirectoryAt_iff.mpr ⟨place, followed, there⟩)
  have written := FileSystem.writeBytes_join reached there isName free
    (text reports user moment).toUTF8
  rw [write, made]
  dsimp only
  rw [FileSystem.writeText, written]
  split_ifs <;> rfl

/-- A user that is resolved, and that has no NUL, makes a name that a file can have. In a directory
that is there and has no directory of that name, the log is written exactly if the name, which is
the user with at least twelve bytes more, and the path are short enough. -/
theorem write_resolved {configured versionControl : Option String} {moment : Moment}
    {fs : FileSystem} {directory : String} {place : List String}
    (plain : '\x00' ∉ (resolveUser configured versionControl).toList)
    (reached : fs.place directory = .ok place) (there : fs.standing place = .directory)
    (free : fs.standing (place ++ [fileName (resolveUser configured versionControl) moment]) ≠
      .directory) (reports : List Report) :
    let user := resolveUser configured versionControl
    let name := fileName user moment
    let path := Path.join directory name
    IsName name ∧ name.utf8ByteSize = user.utf8ByteSize + moment.stamp.utf8ByteSize + 12 ∧
      write fs reports directory user moment =
        if name.utf8ByteSize ≤ FileSystem.nameLimit ∧ path.utf8ByteSize ≤ FileSystem.pathLimit then
          (fs.putFile (place ++ [name]) (text reports user moment).toUTF8, .ok path)
        else (fs, .error (.fileNotWritten path .nameTooLong)) := by
  intro user name path
  have isUser : IsUser user := isUser_resolveUser configured versionControl
  have isName : IsName name :=
    isName_fileName (fun inside => (isUser.kept _ inside).2.1 rfl) plain
  have fits : FileSystem.Fits directory [name] ↔
      name.utf8ByteSize ≤ FileSystem.nameLimit ∧ path.utf8ByteSize ≤ FileSystem.pathLimit := by
    rw [FileSystem.Fits, List.forall_mem_singleton, and_comm]
    rfl
  refine ⟨isName, utf8ByteSize_fileName user moment, ?_⟩
  simp only [← fits]
  exact write_into_directory reached there isName free reports

-- For long names on fixed inputs. The characters are filtered as a list, since a comparison of long
-- strings takes its time.
theorem resolveUser_of_filter {given kept : List Char} (kept_eq : given.filter isKept = kept)
    (left : kept ≠ []) (versionControl : Option String) :
    resolveUser (some (String.ofList given)) versionControl = String.ofList kept := by
  have usable : usable? (some (String.ofList given)) = some (String.ofList kept) := by
    refine usable?_eq_some_iff.mpr ⟨_, rfl, ?_, by simpa using left⟩
    rw [sanitize, String.toList_ofList, kept_eq]
  rw [resolveUser, usable]
  rfl

/-- The longest name that a file can have, of a user with two bytes to most of its characters. -/
theorem write_resolved_longest :
    let fs : FileSystem := ⟨[("logs", .directory [])], []⟩
    let moment : Moment := ⟨2025, 3, 7, 9, 5, 0, 0⟩
    let given := String.ofList (['/', ' ', '\x07'] ++ List.replicate 113 'é' ++ [':', '\n'])
    let user := String.ofList ('\x07' :: List.replicate 113 'é')
    let name := fileName user moment
    resolveUser (some given) none = user ∧ '\x00' ∉ user.toList ∧
      fs.place "logs" = .ok ["logs"] ∧ fs.standing ["logs"] = .directory ∧
      fs.standing ["logs", name] = .nothing ∧ name.utf8ByteSize = 255 ∧
      (write fs [] "logs" user moment).2 = .ok (Path.join "logs" name) := by
  intro fs moment given user name
  have resolved : resolveUser (some given) none = user :=
    resolveUser_of_filter (by decide +kernel) (List.cons_ne_nil _ _) none
  have plain : '\x00' ∉ user.toList := by
    rw [String.toList_ofList]
    decide
  have reached : fs.place "logs" = .ok ["logs"] := by decide +kernel
  have there : fs.standing ["logs"] = .directory := rfl
  have missing : fs.standing ["logs", name] = .nothing := by decide +kernel
  have size : name.utf8ByteSize = 255 := by decide +kernel
  have short : (Path.join "logs" name).utf8ByteSize ≤ FileSystem.pathLimit := by decide +kernel
  have free : fs.standing (["logs"] ++ [fileName (resolveUser (some given) none) moment]) ≠
      .directory := by
    rw [resolved]
    exact missing ▸ nofun
  have all := write_resolved (resolved.symm ▸ plain) reached there free []
  rw [resolved] at all
  obtain ⟨-, -, written⟩ := all
  rw [if_pos ⟨Nat.le_of_eq size, short⟩] at written
  exact ⟨resolved, plain, reached, there, missing, size, congrArg Prod.snd written⟩

/-- A user with one byte more than the name of its log can carry. -/
theorem write_resolved_too_long :
    let fs : FileSystem := ⟨[("logs", .directory [])], []⟩
    let moment : Moment := ⟨2025, 3, 7, 9, 5, 0, 0⟩
    let user := String.ofList (List.replicate 228 'a')
    let name := fileName user moment
    resolveUser (some user) none = user ∧ fs.place "logs" = .ok ["logs"] ∧
      fs.standing ["logs"] = .directory ∧ fs.standing ["logs", name] = .nothing ∧
      name.utf8ByteSize = 256 ∧
      (write fs [] "logs" user moment).2 =
        .error (.fileNotWritten (Path.join "logs" name) .nameTooLong) := by
  intro fs moment user name
  have resolved : resolveUser (some user) none = user :=
    resolveUser_of_filter (by decide +kernel) (by decide) none
  have reached : fs.place "logs" = .ok ["logs"] := by decide +kernel
  have there : fs.standing ["logs"] = .directory := rfl
  have missing : fs.standing ["logs", name] = .nothing := by decide +kernel
  have size : name.utf8ByteSize = 256 := by decide +kernel
  have single : ∀ c ∈ user.toList, c = 'a' := by
    rw [String.toList_ofList]
    exact fun c => List.eq_of_mem_replicate
  have isName : IsName name := isName_fileName (fun inside => absurd (single _ inside) (by decide))
    (fun inside => absurd (single _ inside) (by decide))
  have failed := write_into_directory reached there isName (missing ▸ nofun) []
  have long : ¬ FileSystem.Fits "logs" [name] := fun fits =>
    absurd (fits.2 name List.mem_cons_self) (size ▸ by decide)
  rw [if_neg long] at failed
  exact ⟨resolved, reached, there, missing, size, congrArg Prod.snd failed⟩

end LexicalReport.Log
