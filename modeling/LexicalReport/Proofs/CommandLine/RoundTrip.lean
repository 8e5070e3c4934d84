import LexicalReport.Proofs.CommandLine.Accepted
import LexicalReport.Proofs.CommandLine.Scores
import Mathlib.Data.List.ReduceOption
import Mathlib.Tactic.MkIffOfInductiveProp

/-! Writing a command line and reading it back. The options of a lex command may stand in any order,
each with its value attached. A value may look like an option or hold an equals sign, for it is cut
off at the first one and no name holds any; and so may the path, since the options have ended before
it. -/

namespace LexicalReport.CommandLine

def Setting.spelled (s : Setting) (value : String) : String :=
  "--" ++ s.name ++ "=" ++ value

def Given.spelled : Given → String
  | .switch .verbose => "-v"
  | .switch s => "--" ++ s.name
  | .format shown => Setting.format.spelled shown.name
  | .logDirectory name => Setting.logDirectory.spelled name
  | .user name => Setting.user.spelled name
  | .score value => decimal value
  | .path name => name

def LexRequest.options (request : LexRequest) (verbose : Bool) : List Given :=
  [if verbose then some (.switch .verbose) else none,
    request.format.map .format,
    if request.noLog then some (.switch .noLog) else none,
    request.logDirectory.map .logDirectory,
    request.user.map .user,
    if request.failOnError then some (.switch .failOnError) else none].reduceOption

namespace Word

section Long

variable {name : List Char} (plain : ∀ c ∈ name, (c != '=') = true) (value : List Char)
include plain

theorem attached?_append : attached? (name ++ '=' :: value) = some value := by
  rw [attached?, List.dropWhile_append_of_pos plain, List.dropWhile_cons_of_neg (by simp)]

theorem ofChars_long :
    ofChars ('-' :: '-' :: (name ++ '=' :: value)) = .long name (some value) := by
  rw [ofChars, attached?_append plain, List.takeWhile_append_of_pos plain,
    List.takeWhile_cons_of_neg (by simp), List.append_nil]
  simp

end Long

theorem ofText_spelled (s : Setting) (value : String) :
    ofText (s.spelled value) = .long s.name.toList (some value.toList) := by
  have plain : ∀ c ∈ s.name.toList, (c != '=') = true :=
    List.all_eq_true.mp (by cases s <;> decide)
  rw [ofText, Setting.spelled, ← ofChars_long plain]
  congr 1
  simp

end Word

def Given.IsOption : Given → Prop
  | .switch s => s ≠ .help ∧ s ≠ .version
  | .logDirectory name => name ≠ ""
  | .format _ | .user _ => True
  | .score _ | .path _ => False

/-- Two things that can both be given: not the same switch, nor values of the same setting. -/
@[mk_iff]
structure Given.Apart (g h : Given) : Prop where
  ne : g ≠ h
  setting : ∀ s, g.setting? = some s → h.setting? ≠ some s

theorem Given.Apart.symm {g h : Given} (apart : g.Apart h) : h.Apart g :=
  ⟨apart.ne.symm, fun s of other => apart.setting s other of⟩

namespace Draft

variable {given : List Given} {slots : List Slot}

theorem turnOn_fresh {s : Switch} (option : Given.IsOption (.switch s))
    (fresh : .switch s ∉ given) :
    turnOn ⟨given, none, slots⟩ s = .ok ⟨given ++ [.switch s], none, slots⟩ := by
  have off : isGiven ⟨given, none, slots⟩ s = false := by
    simpa [isGiven] using fresh
  cases s with
  | help => exact absurd rfl option.1
  | version => exact absurd rfl option.2
  | _ =>
    simp only [turnOn, settle]
    exact if_neg (by simp [off])

theorem settle_setting {s : Setting} {value : String} {found : Given}
    (read : s.read value = .ok found) (fresh : ∀ g ∈ given, g.setting? ≠ some s) :
    settle ⟨given, some (.setting s (some value)), slots⟩ =
      .ok ⟨given ++ [found], none, slots⟩ := by
  have new : (given.any fun g => g.setting? == some s) = false := by simpa using fresh
  simp only [settle, Pending.read, new, Bool.false_eq_true, if_false, read]

theorem take_setting {s : Setting} {value : String} {found : Given}
    (read : s.read value = .ok found) (fresh : ∀ g ∈ given, g.setting? ≠ some s) :
    take .lex ⟨given, none, slots⟩ (s.spelled value) = .ok ⟨given ++ [found], none, slots⟩ := by
  have known : Scope.lex.setting? s.name.toList = some s := by cases s <;> decide
  simp only [take, Word.ofText_spelled, takeLong, known, Option.map_some, String.ofList_toList]
  exact settle_setting read fresh

/-- A switch is taken as it is turned on. Every switch of the program but one is a lex command's. -/
theorem take_switch {s : Switch} (here : s ≠ .version) (draft : Draft) :
    take .lex draft ("--" ++ s.name) = draft.turnOn s := by
  have written : Word.ofText ("--" ++ s.name) = .long s.name.toList none := by
    cases s <;> decide
  have unset : Scope.lex.setting? s.name.toList = none := by cases s <;> decide
  have known : Scope.lex.switch? s.name.toList = some s := by
    cases s with
    | version => exact absurd rfl here
    | _ => decide
  simp only [take, written, takeLong, unset, known]
  rfl

theorem take_verbose (scope : Scope) {draft : Draft} (slot : draft.slots.head? ≠ some .score) :
    take scope draft "-v" = draft.turnOn .verbose := by
  have written : Word.ofText "-v" = .cluster ['v'] := by decide
  have known : scope.switchOfLetter? 'v' = some .verbose := by cases scope <;> decide
  simp only [take, written, slot, false_and, if_false, turnOnLetters, known]
  cases draft.turnOn .verbose <;> rfl

theorem take_spelled {g : Given} (option : g.IsOption) (fresh : ∀ h ∈ given, h.Apart g) :
    take .lex ⟨given, none, [.path]⟩ g.spelled = .ok ⟨given ++ [g], none, [.path]⟩ := by
  have unset {s : Setting} (of : g.setting? = some s) : ∀ h ∈ given, h.setting? ≠ some s :=
    fun h inside other => (fresh h inside).setting s other of
  cases g with
  | switch s =>
    rw [← turnOn_fresh option fun inside => (fresh _ inside).ne rfl]
    cases s with
    | help => exact absurd rfl option.1
    | version => exact absurd rfl option.2
    | verbose => exact take_verbose .lex (by simp)
    | noLog | failOnError => exact take_switch option.2 _
  | format shown =>
    have read : Setting.format.read shown.name = .ok (.format shown) := by cases shown <;> rfl
    exact take_setting read (unset rfl)
  | logDirectory name =>
    have read : Setting.logDirectory.read name = .ok (.logDirectory name) := if_neg option
    exact take_setting read (unset rfl)
  | user name =>
    have read : Setting.user.read name = .ok (.user name) := rfl
    exact take_setting read (unset rfl)
  | score value | path name => exact option.elim

theorem spelled_ne_endOfOptions {g : Given} (option : g.IsOption) :
    Word.ofText g.spelled ≠ .endOfOptions := by
  cases g with
  | switch s => cases s <;> decide
  | format | logDirectory | user =>
    rw [Given.spelled, Word.ofText_spelled]
    simp
  | score | path => exact option.elim

theorem takeAll_spelled {options : List Given} (each : ∀ g ∈ options, g.IsOption)
    (apart : (given ++ options).Pairwise Given.Apart) {path : String} (filled : path ≠ "") :
    takeAll .lex ⟨given, none, [.path]⟩ (options.map Given.spelled ++ ["--", path]) =
      .ok ⟨given ++ options ++ [.path path], none, []⟩ := by
  induction options generalizing given with
  | nil =>
    have ends : Word.ofText "--" = .endOfOptions := by decide
    have read : Slot.path.read path = .ok (.path path) := if_neg filled
    have filled : settle ⟨given, some (.slot .path path), []⟩ =
        .ok ⟨given ++ [.path path], none, []⟩ := by
      simp only [settle, Pending.read, read]
    rw [List.map_nil, List.nil_append, takeAll, if_pos ends, List.append_nil]
    exact filled
  | cons g options ih =>
    obtain ⟨option, rest⟩ := List.forall_mem_cons.mp each
    have fresh : ∀ h ∈ given, h.Apart g := fun h inside =>
      (List.pairwise_append.mp apart).2.2 h inside g List.mem_cons_self
    rw [List.map_cons, List.cons_append, takeAll, if_neg (spelled_ne_endOfOptions option),
      take_spelled option fresh]
    rw [← List.singleton_append, ← List.append_assoc] at apart
    refine (ih rest apart).trans ?_
    rw [List.append_assoc given, List.singleton_append]

theorem isGiven_eq {draft : Draft} {s : Switch} {on : Bool}
    (members : .switch s ∈ draft.given ↔ on = true) : draft.isGiven s = on :=
  Bool.eq_iff_iff.mpr (List.contains_iff_mem.trans members)

theorem findSome?_eq {α : Type} {part : Given → Option α} (make : α → Given)
    (parts : ∀ g value, part g = some value ↔ g = make value) {found : Option α}
    (members : ∀ value, make value ∈ given ↔ found = some value) :
    given.findSome? part = found := by
  have within (value : α) (here : given.findSome? part = some value) : found = some value := by
    obtain ⟨g, inside, read⟩ := List.exists_of_findSome?_eq_some here
    exact (members value).mp ((parts g value).mp read ▸ inside)
  cases here : given.findSome? part with
  | some value => exact (within value here).symm
  | none =>
    cases found with
    | none => rfl
    | some value =>
      have missed := List.findSome?_eq_none_iff.mp here _ ((members value).mpr rfl)
      rw [(parts _ value).mpr rfl] at missed
      exact nomatch missed

end Draft

namespace LexRequest

variable {request : LexRequest} {verbose : Bool} {g : Given}

theorem mem_options : g ∈ request.options verbose ↔
    (verbose = true ∧ g = .switch .verbose) ∨
      (∃ shown, request.format = some shown ∧ g = .format shown) ∨
      (request.noLog = true ∧ g = .switch .noLog) ∨
      (∃ name, request.logDirectory = some name ∧ g = .logDirectory name) ∨
      (∃ name, request.user = some name ∧ g = .user name) ∨
      (request.failOnError = true ∧ g = .switch .failOnError) := by
  simp [options, List.reduceOption_mem_iff, @eq_comm _ (some g), @eq_comm _ _ g]

theorem Allowed.isOption (allowed : request.Allowed) (inside : g ∈ request.options verbose) :
    g.IsOption := by
  obtain ⟨-, rfl⟩ | ⟨_, -, rfl⟩ | ⟨-, rfl⟩ | ⟨name, logDirectory, rfl⟩ | ⟨_, -, rfl⟩ | ⟨-, rfl⟩ :=
    mem_options.mp inside
  · simp [Given.IsOption]
  · trivial
  · simp [Given.IsOption]
  · rintro rfl
    exact allowed.logDirectory logDirectory
  · trivial
  · simp [Given.IsOption]

theorem options_apart : (request.options verbose).Pairwise Given.Apart := by
  rw [options, List.reduceOption, List.pairwise_filterMap]
  simp [Given.apart_iff, Given.setting?]

variable {given : List Given}

theorem command_eq (allowed : request.Allowed) (pending : Option Pending) (slots : List Slot)
    (perm : given.Perm (request.options verbose)) :
    Draft.command ⟨given ++ [.path request.path], pending, slots⟩ .lex = .ok (.lex request) := by
  have members (g : Given) : g ∈ given ++ [.path request.path] ↔
      g ∈ request.options verbose ∨ g = .path request.path := by
    rw [List.mem_append, perm.mem_iff, List.mem_singleton]
  generalize whole : Draft.mk (given ++ [.path request.path]) pending slots = draft
  have same : draft.given = given ++ [.path request.path] := by rw [← whole]
  rw [← same] at members
  have path : draft.path? = some request.path :=
    Draft.findSome?_eq .path (fun g _ => by cases g <;> simp) fun _ => by
      simpa [members, mem_options] using eq_comm
  have format : draft.format? = request.format :=
    Draft.findSome?_eq .format (fun g _ => by cases g <;> simp) fun _ => by
      simp [members, mem_options]
  have logDirectory : draft.logDirectory? = request.logDirectory :=
    Draft.findSome?_eq .logDirectory (fun g _ => by cases g <;> simp) fun _ => by
      simp [members, mem_options]
  have user : draft.user? = request.user :=
    Draft.findSome?_eq .user (fun g _ => by cases g <;> simp) fun _ => by
      simp [members, mem_options]
  have noLog : draft.isGiven .noLog = request.noLog :=
    Draft.isGiven_eq (by simp [members, mem_options])
  have failOnError : draft.isGiven .failOnError = request.failOnError :=
    Draft.isGiven_eq (by simp [members, mem_options])
  have exclusive : (request.noLog && request.logDirectory.isSome) = false := by
    simpa using allowed.exclusive
  simp only [Draft.command, noLog, logDirectory, exclusive, Draft.command?, path, Option.map_some,
    Draft.lexRequest, format, user, failOnError]
  rfl

theorem isGiven_verbose (path : String) (pending : Option Pending) (slots : List Slot)
    (perm : given.Perm (request.options verbose)) :
    Draft.isGiven ⟨given ++ [.path path], pending, slots⟩ .verbose = verbose :=
  Draft.isGiven_eq (by simp [perm.mem_iff, mem_options])

theorem readFrom_lex (allowed : request.Allowed) (before : Draft)
    (perm : given.Perm (request.options verbose)) :
    readFrom before ("lex" :: (given.map Given.spelled ++ ["--", request.path])) =
      .ok ⟨before.isGiven .verbose || verbose, .lex request⟩ := by
  have each : ∀ g ∈ given, g.IsOption := fun g inside =>
    allowed.isOption (perm.mem_iff.mp inside)
  have apart : given.Pairwise Given.Apart :=
    options_apart.perm perm.symm Given.Apart.symm
  have taken : (Draft.start .lex).takeAll .lex (given.map Given.spelled ++ ["--", request.path]) =
      .ok ⟨given ++ [.path request.path], none, []⟩ :=
    Draft.takeAll_spelled each (by simpa using apart) allowed.path
  have command := command_eq allowed none [] perm
  rw [readFrom_command rfl taken command before, isGiven_verbose request.path none [] perm]

end LexRequest

theorem readFrom_verbose (words : List String) :
    readFrom (.start .top) ("-v" :: words) = readFrom ⟨[.switch .verbose], none, []⟩ words := by
  have taken : (Draft.start .top).take .top "-v" = .ok ⟨[.switch .verbose], none, []⟩ :=
    (Draft.take_verbose .top (by decide)).trans (Draft.turnOn_fresh ⟨nofun, nofun⟩ (by decide))
  have noScope : Scope.ofName? "-v" = none := by decide
  have noHelp : "-v" ≠ Scope.helpName := by decide
  have more : Word.ofText "-v" ≠ .endOfOptions := by decide
  simp only [readFrom, noScope, noHelp, more, if_false, taken]
  rfl

/-- What is written is read back, and nothing is read that could not be written: a lex command with
its options in any order and its path, two scores, and one score. -/
theorem read_written :
    (∀ (request : LexRequest) (before after : Bool) (given : List Given),
      request.path ≠ "" → request.logDirectory ≠ some "" →
      ¬ (request.noLog = true ∧ request.logDirectory.isSome = true) →
      given.Perm (request.options after) →
        read ((if before then ["-v"] else []) ++
          "lex" :: (given.map Given.spelled ++ ["--", request.path])) =
            .ok ⟨before || after, .lex request⟩) ∧
    (∀ a b, read ["average", decimal a, decimal b] = .ok ⟨false, .average a b⟩) ∧
    (∀ a, read ["grade", decimal a] = .ok ⟨false, .grade a⟩) ∧
    ∀ words verbose request, read words = .ok ⟨verbose, .lex request⟩ →
      request.path ≠ "" ∧ request.logDirectory ≠ some "" ∧
        ¬ (request.noLog = true ∧ request.logDirectory.isSome = true) := by
  refine ⟨?_, read_average, read_grade, ?_⟩
  · intro request before after given path logDirectory exclusive perm
    have allowed : request.Allowed := ⟨path, logDirectory, exclusive⟩
    cases before with
    | false => exact request.readFrom_lex allowed (.start .top) perm
    | true =>
      rw [if_pos rfl, List.singleton_append, read, readFrom_verbose]
      exact request.readFrom_lex allowed _ perm
  · intro words verbose request written
    have allowed := allowed_of_readFrom words _ _ written request rfl
    exact ⟨allowed.path, allowed.logDirectory, allowed.exclusive⟩

/-- Values and a path that look like options, a user without letters, and the least score. -/
theorem read_written_like_options :
    let request : LexRequest := ⟨"--user", some .json, false, some "-v=x", some "", true⟩
    read ["-v", "lex", "--user=", "--log-dir=-v=x", "-v", "--fail-on-error", "--format=json", "--",
        "--user"] = .ok ⟨true, .lex request⟩ ∧
      request.path ≠ "" ∧ request.logDirectory ≠ some "" ∧
      ¬ (request.noLog = true ∧ request.logDirectory.isSome = true) ∧
      read ["average", "-9223372036854775808", "0"] = .ok ⟨false, .average Int64.minValue 0⟩ := by
  intro request
  let given : List Given := [.user "", .logDirectory "-v=x", .switch .verbose,
    .switch .failOnError, .format .json]
  have spelled : given.map Given.spelled =
      ["--user=", "--log-dir=-v=x", "-v", "--fail-on-error", "--format=json"] := by decide +kernel
  have perm : given.Perm (request.options true) := by decide +kernel
  have parsed := read_written.1 request true true given (by decide) (by decide) (by decide) perm
  rw [spelled] at parsed
  have least : decimal Int64.minValue = "-9223372036854775808" := by decide +kernel
  have scores := read_written.2.1 Int64.minValue 0
  rw [least] at scores
  obtain ⟨path, logDirectory, exclusive⟩ := read_written.2.2.2 _ true request parsed
  exact ⟨parsed, path, logDirectory, exclusive, scores⟩

end LexicalReport.CommandLine
