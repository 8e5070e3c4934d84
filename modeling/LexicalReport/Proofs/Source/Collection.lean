import LexicalReport.Source.Collection
import LexicalReport.Proofs.Files.Joining
import LexicalReport.Proofs.Ignore.Listing
import LexicalReport.Proofs.Text.ByteOrder
import Mathlib.Data.List.Nodup

/-! Sources are collected exactly: whatever order a complete listing has, the sources of a directory
are the source files that it lists, each of them once, in the order of their paths. The reports are
those on each source alone, or the failure of the first source that cannot be read. -/

namespace LexicalReport

open Files (Entries Node FileSystem Path IsName)

def Files.Path.componentBytes (path : String) : List (List UInt8) :=
  (ofText path).components.map Text.bytes

theorem Files.Path.extension?_eq_some_iff {name : String} {extension : List Char}
    (solid : extension ≠ []) (flat : '.' ∉ extension) :
    extension? name = some (String.ofList extension) ↔
      ∃ stem, stem ≠ [] ∧ name.toList = stem ++ '.' :: extension := by
  have stops : ∀ c ∈ extension.reverse, (c != '.') = true := by
    intro c inside
    rw [bne_iff_ne]
    rintro rfl
    exact flat (List.mem_reverse.mp inside)
  constructor
  · intro found
    rw [extension?] at found
    have whole := List.takeWhile_append_dropWhile (p := (· != '.')) (l := name.toList.reverse)
    split at found
    · rename_i first before ends
      split at found
      · cases found
      · rw [Option.some_inj, String.ofList_inj] at found
        rw [ends] at whole
        refine ⟨(first :: before).reverse, by simp, ?_⟩
        rw [← List.reverse_reverse name.toList, ← whole, List.reverse_append, found,
          List.reverse_cons, List.append_assoc, List.singleton_append]
    · cases found
  · rintro ⟨stem, begins, whole⟩
    have reversed : name.toList.reverse = extension.reverse ++ '.' :: stem.reverse := by
      rw [whole]
      simp
    obtain ⟨first, before, same⟩ := List.exists_cons_of_ne_nil (List.reverse_ne_nil_iff.mpr begins)
    have other : name ≠ ".." := by
      rintro rfl
      have length := congrArg List.length whole
      have one := List.length_pos_of_ne_nil begins
      have two := List.length_pos_of_ne_nil solid
      simp at length
      omega
    rw [extension?, reversed, List.dropWhile_append_of_pos stops,
      List.takeWhile_append_of_pos stops, List.dropWhile_cons_of_neg (by decide),
      List.takeWhile_cons_of_neg (by decide), same]
    simp [other]

namespace Source

theorem precedes_eq_true_iff {a b : List String} : precedes a b = true ↔ ¬ b < a := by
  induction a generalizing b with
  | nil => exact ⟨fun _ => List.not_lt_nil b, fun _ => by rw [precedes]⟩
  | cons first a ih =>
    cases b with
    | nil => exact ⟨nofun, fun before => absurd (List.nil_lt_cons _ _) before⟩
    | cons second b =>
      rw [precedes, List.not_lt, List.cons_le_cons_iff, ← List.not_lt, ← ih]
      simp

theorem precedes_trans (a b c : List String) (first : precedes a b = true)
    (second : precedes b c = true) : precedes a c = true := by
  rw [precedes_eq_true_iff, List.not_lt] at *
  exact List.le_trans first second

theorem precedes_total (a b : List String) : (precedes a b || precedes b a) = true := by
  rw [Bool.or_eq_true, precedes_eq_true_iff, precedes_eq_true_iff, List.not_lt, List.not_lt]
  exact List.le_total a b

theorem lt_of_precedes {a b : List String} (before : precedes a b = true) (other : a ≠ b) :
    a < b := by
  rw [precedes_eq_true_iff, List.not_lt] at before
  exact (List.le_iff_lt_or_eq.mp before).resolve_right other

theorem select_perm (listed : List Ignore.Entry) :
    (select listed).Perm ((listed.filter isSource).map Ignore.Entry.names) :=
  List.mergeSort_perm _ _

theorem select_nodup {listed : List Ignore.Entry} (once : (listed.map Ignore.Entry.names).Nodup) :
    (select listed).Nodup := by
  rw [(select_perm listed).nodup_iff]
  exact once.sublist (List.filter_sublist.map _)

theorem select_ascending {listed : List Ignore.Entry}
    (once : (listed.map Ignore.Entry.names).Nodup) : (select listed).Pairwise (· < ·) := by
  have sorted := List.pairwise_mergeSort precedes_trans precedes_total
    ((listed.filter isSource).map Ignore.Entry.names)
  exact (sorted.and (select_nodup once)).imp fun {a b} both => lt_of_precedes both.1 both.2

theorem select_eq_of_perm {listed other : List Ignore.Entry} (same : listed.Perm other)
    (once : (listed.map Ignore.Entry.names).Nodup) : select listed = select other := by
  have perm : (select listed).Perm (select other) :=
    (select_perm listed).trans (((same.filter _).map _).trans (select_perm other).symm)
  refine perm.eq_of_pairwise (fun a b _ _ first second => ?_) (select_ascending once)
    (select_ascending ((same.map _).nodup_iff.mp once))
  exact absurd second (List.lt_asymm first)

/-- Names that lead to a source file below a directory: a shown file, in shown directories, whose
name has something before its last dot and the extension of sources after it. -/
structure IsSourceBelow (shown : List String → Bool) (entries : Entries) (names : List String) :
    Prop where
  file : ∃ content, entries.at? names = some (.file content)
  shown : ∀ above, above <+: names → above ≠ [] → shown above = true
  named : ∃ name stem, names.getLast? = some name ∧ stem ≠ [] ∧
    name.toList = stem ++ ['.', 'g', 'o']

theorem isSource_eq_true_iff {names : List String} {isFile : Bool} :
    isSource ⟨names, isFile⟩ = true ↔ isFile = true ∧
      ∃ name stem, names.getLast? = some name ∧ stem ≠ [] ∧
        name.toList = stem ++ ['.', 'g', 'o'] := by
  have suffix (name : String) :=
    @Path.extension?_eq_some_iff name ['g', 'o'] (by decide) (by decide)
  rw [isSource, Bool.and_eq_true, beq_iff_eq, Option.bind_eq_some_iff]
  refine and_congr_right fun _ => ?_
  constructor
  · rintro ⟨name, last, same⟩
    obtain ⟨stem, parts⟩ := (suffix name).mp same
    exact ⟨name, stem, last, parts⟩
  · rintro ⟨name, stem, last, parts⟩
    exact ⟨name, last, (suffix name).mpr ⟨stem, parts⟩⟩

theorem mem_select_iff {shown : List String → Bool} {entries : Entries}
    {listed : List Ignore.Entry} (complete : Ignore.Complete shown entries listed)
    {names : List String} : names ∈ select listed ↔ IsSourceBelow shown entries names := by
  rw [(select_perm listed).mem_iff, List.mem_map]
  constructor
  · rintro ⟨⟨_, isFile⟩, inside, rfl⟩
    obtain ⟨member, source⟩ := List.mem_filter.mp inside
    obtain ⟨rfl, named⟩ := isSource_eq_true_iff.mp source
    obtain ⟨-, ⟨node, there, kind⟩, shown⟩ := (complete.mem _ _).mp member
    cases node with
    | file content => exact ⟨⟨content, there⟩, shown, named⟩
    | directory inner => cases kind
  · rintro ⟨⟨content, there⟩, shown, named⟩
    refine ⟨⟨names, true⟩, List.mem_filter.mpr ⟨?_, isSource_eq_true_iff.mpr ⟨rfl, named⟩⟩, rfl⟩
    refine (complete.mem _ _).mpr ⟨?_, ⟨_, there, rfl⟩, shown⟩
    rintro rfl
    cases there

theorem select_eq_of_complete {shown : List String → Bool} {entries : Entries}
    {listed other : List Ignore.Entry} (complete : Ignore.Complete shown entries listed)
    (again : Ignore.Complete shown entries other) : select listed = select other := by
  refine select_eq_of_perm ?_ complete.once
  refine (List.perm_ext_iff_of_nodup complete.once.of_map again.once.of_map).mpr ?_
  rintro ⟨names, isFile⟩
  rw [complete.mem, again.mem]

/-! Reports are made of one source after the other. -/

section Reports

variable {fs : FileSystem}

theorem report_ok {path text : String} (reads : fs.readText path = .ok text) :
    report fs path = .ok (.ofSource path text) := by
  rw [report, reads]

def failure (path : String) (cause : Files.Failure) : Failure :=
  if cause = .notFound then .notFound path else .unreadable path cause

theorem report_error {path : String} {cause : Files.Failure}
    (fails : fs.readText path = .error cause) : report fs path = .error (failure path cause) := by
  rw [report, fails]
  cases cause <;> rfl

/-- What comes of reporting on files in their order: a report on each of them, or the failure of the
first that cannot be read. -/
inductive Reported (fs : FileSystem) (files : List String) : Except Failure (List Report) → Prop
  | each {reports : List Report}
    (all : List.Forall₂ (fun file found =>
      ∃ text, fs.readText file = .ok text ∧ found = .ofSource file text) files reports) :
    Reported fs files (.ok reports)
  | first {before after : List String} {file : String} {cause : Files.Failure}
    (cut : files = before ++ file :: after)
    (readable : ∀ other ∈ before, ∃ text, fs.readText other = .ok text)
    (fails : fs.readText file = .error cause) :
    Reported fs files (.error (failure file cause))

theorem reported (fs : FileSystem) (files : List String) :
    Reported fs files (files.mapM (report fs)) := by
  induction files with
  | nil => exact .each .nil
  | cons file files ih =>
    rw [List.mapM_cons]
    generalize files.mapM (report fs) = result at ih ⊢
    cases reads : fs.readText file with
    | error cause =>
      rw [report_error reads]
      exact .first rfl (fun _ none => absurd none List.not_mem_nil) reads
    | ok text =>
      rw [report_ok reads]
      cases ih with
      | each all => exact .each (.cons ⟨text, reads, rfl⟩ all)
      | first cut readable fails =>
        rw [cut]
        refine .first List.cons_append.symm (List.forall_mem_cons.mpr ?_) fails
        exact ⟨⟨text, reads⟩, readable⟩

end Reports

/-! The sources of a directory. -/

structure Collected (listing : FileSystem → String → List Ignore.Entry) (fs : FileSystem)
    (path : String) (shown : List String → Bool) (entries : Entries) (files : List String) :
    Prop where
  collects : collectBy listing fs path = .ok files
  mem : ∀ file, file ∈ files ↔
    ∃ names, IsSourceBelow shown entries names ∧ file = Path.joinAll path names
  once : files.Nodup
  ascending : files.Pairwise (fun a b => Path.componentBytes a < Path.componentBytes b)
  unordered : ∀ other, Ignore.Complete shown entries (other fs path) →
    collectBy other fs path = .ok files ∧ reportsBy other fs path = reportsBy listing fs path
  texts : ∀ names content, IsSourceBelow shown entries names →
    entries.at? names = some (.file content) →
    fs.readText (Path.joinAll path names) =
      if FileSystem.Fits path names then
        match String.fromUTF8? content with
        | some text => .ok text
        | none => .error .invalidText
      else .error .nameTooLong
  alone : ∀ file ∈ files, ∀ text, fs.readText file = .ok text →
    reportsBy listing fs file = .ok [.ofSource file text]

theorem componentBytes_lt {path : String} {first second : List String} (less : first < second)
    (are : ∀ name ∈ first, IsName name)
    (others : ∀ name ∈ second, IsName name) :
    Path.componentBytes (Path.joinAll path first) <
      Path.componentBytes (Path.joinAll path second) := by
  rw [Path.componentBytes, Path.componentBytes, Path.components_joinAll are,
    Path.components_joinAll others, List.map_append, List.map_append]
  exact List.append_left_lt (List.map_lt (fun _ _ => Text.bytes_lt) less)

section Collection

variable {listing : FileSystem → String → List Ignore.Entry} {fs : FileSystem} {path : String}
  {place : List String} {entries : Entries} {shown : List String → Bool}

theorem node_eq_ok {node : Node} (found : fs.node path = .ok node) :
    ∃ place, fs.place path = .ok place ∧ fs.node? place = some node := by
  obtain ⟨place, reached, there⟩ := FileSystem.bind_eq_ok found
  refine ⟨place, reached, ?_⟩
  cases here : fs.node? place with
  | none =>
    rw [here] at there
    cases there
  | some other =>
    rw [here] at there
    cases there
    rfl

theorem node_of_readText {text : String} (reads : fs.readText path = .ok text) :
    ∃ content, fs.node path = .ok (.file content) := by
  obtain ⟨content, bytes, -⟩ := FileSystem.bind_eq_ok reads
  obtain ⟨node, found, kind⟩ := FileSystem.bind_eq_ok bytes
  cases node with
  | file content => exact ⟨content, found⟩
  | directory inner => cases kind

theorem collectBy_missing (missing : fs.exists? path = false) :
    collectBy listing fs path = .error (.notFound path) := by
  rw [collectBy, missing]
  rfl

theorem collectBy_file {content : ByteArray} (found : fs.node path = .ok (.file content)) :
    collectBy listing fs path = .ok [path] := by
  rw [collectBy, FileSystem.exists?, FileSystem.isFile, found]
  rfl

theorem collectBy_directory (found : fs.node path = .ok (.directory entries)) :
    collectBy listing fs path = .ok ((select (listing fs path)).map (Path.joinAll path)) := by
  rw [collectBy, FileSystem.exists?, FileSystem.isFile, found]
  rfl

theorem reportsBy_of_collectBy {files : List String}
    (collects : collectBy listing fs path = .ok files) :
    reportsBy listing fs path = files.mapM (report fs) := by
  rw [reportsBy, collects]
  rfl

theorem reportsBy_file {text : String} (reads : fs.readText path = .ok text) :
    reportsBy listing fs path = .ok [.ofSource path text] := by
  obtain ⟨content, found⟩ := node_of_readText reads
  rw [reportsBy_of_collectBy (collectBy_file found), List.mapM_cons, report_ok reads]
  rfl

theorem isName_below (named : fs.IsNamed) (there : fs.node? place = some (.directory entries))
    {names : List String} {node : Node} (below : entries.at? names = some node) :
    ∀ name ∈ names, IsName name := by
  have found : (Node.directory fs.root).below? (place ++ names) = some node :=
    (Entries.at?_append there names).trans below
  exact fun name inside => named _ _ found name (List.mem_append_right _ inside)

theorem collected_ascending (named : fs.IsNamed)
    (there : fs.node? place = some (.directory entries))
    (complete : Ignore.Complete shown entries (listing fs path)) :
    ((select (listing fs path)).map (Path.joinAll path)).Pairwise
      (fun a b => Path.componentBytes a < Path.componentBytes b) := by
  have names {names : List String} (inside : names ∈ select (listing fs path)) :
      ∀ name ∈ names, IsName name := by
    obtain ⟨⟨content, below⟩, -⟩ := (mem_select_iff complete).mp inside
    exact isName_below named there below
  rw [List.pairwise_map]
  exact (select_ascending complete.once).imp_of_mem fun first second less =>
    componentBytes_lt less (names first) (names second)

theorem collected (named : fs.IsNamed) (found : fs.node path = .ok (.directory entries))
    (complete : Ignore.Complete shown entries (listing fs path)) :
    Collected listing fs path shown entries
      ((select (listing fs path)).map (Path.joinAll path)) := by
  obtain ⟨place, reached, there⟩ := node_eq_ok found
  have ascending := collected_ascending named there complete
  exact {
    collects := collectBy_directory found
    mem := fun file => by
      simp only [List.mem_map, mem_select_iff complete, eq_comm]
    once := ascending.imp fun {a b} less same => by
      subst same
      exact List.lt_irrefl _ less
    ascending := ascending
    unordered := fun other again => by
      have same : collectBy other fs path = collectBy listing fs path := by
        rw [collectBy_directory found, collectBy_directory found,
          select_eq_of_complete complete again]
      exact ⟨same.trans (collectBy_directory found), by rw [reportsBy, reportsBy, same]⟩
    texts := fun names content _ below =>
      FileSystem.readText_joinAll reached there below (isName_below named there below)
    alone := fun _ _ _ reads => reportsBy_file reads }

end Collection

/-- Sources are collected exactly, and reported on in their order. -/
theorem collects_exactly (listing : FileSystem → String → List Ignore.Entry) (fs : FileSystem)
    (path : String) :
    (fs.exists? path = false → collectBy listing fs path = .error (.notFound path)) ∧
    (∀ content, fs.node path = .ok (.file content) → collectBy listing fs path = .ok [path]) ∧
    (∀ entries shown, fs.IsNamed → fs.node path = .ok (.directory entries) →
      Ignore.Complete shown entries (listing fs path) →
      ∃ files, Collected listing fs path shown entries files) ∧
    (∀ failure, collectBy listing fs path = .error failure →
      reportsBy listing fs path = .error failure) ∧
    (∀ files, collectBy listing fs path = .ok files →
      Reported fs files (reportsBy listing fs path)) := by
  refine ⟨collectBy_missing, fun _ => collectBy_file, fun entries shown named found complete =>
    ⟨_, collected named found complete⟩, fun failure fails => ?_, fun files collects => ?_⟩
  · rw [reportsBy, fails]
    rfl
  · rw [reportsBy_of_collectBy collects]
    exact reported fs files

/-- A directory whose order by components is not that by characters, with a hidden file and a source
that is no text. -/
def mixedEntries : Entries :=
  [("a", .directory [("y.go", .file ⟨#[0x59]⟩)]), (".c.go", .file ⟨#[]⟩),
    ("a.b", .directory [("x.go", .file ⟨#[0xff]⟩)]), ("notes.txt", .file ⟨#[]⟩)]

def mixedFiles : FileSystem :=
  ⟨[("w", .directory mixedEntries)], []⟩

def backwards (fs : FileSystem) (path : String) : List Ignore.Entry :=
  (Ignore.listing fs path).reverse

theorem isNamed_single {name : String} {node : Node} (isName : IsName name)
    (below : node.IsNamed) : (Node.directory [(name, node)]).IsNamed :=
  Node.isNamed_directory (List.forall_mem_singleton.mpr ⟨isName, below⟩)

theorem mixedFiles_isNamed : mixedFiles.IsNamed := by
  refine isNamed_single (by decide) (Node.isNamed_directory ?_)
  simp only [mixedEntries, List.forall_mem_cons]
  exact ⟨⟨by decide, isNamed_single (by decide) (Node.isNamed_file _)⟩,
    ⟨by decide, Node.isNamed_file _⟩,
    ⟨by decide, isNamed_single (by decide) (Node.isNamed_file _)⟩,
    ⟨by decide, Node.isNamed_file _⟩, List.forall_mem_nil _⟩

theorem mixedEntries_isDistinct : Ignore.IsDistinct (.directory mixedEntries) := by
  refine Ignore.isDistinct_directory (by decide) ?_
  have single (name : String) (content : ByteArray) :
      Ignore.IsDistinct (.directory [(name, .file content)]) :=
    Ignore.isDistinct_directory (List.pairwise_singleton _ _)
      (List.forall_mem_singleton.mpr (Ignore.isDistinct_file content))
  simp only [mixedEntries, List.forall_mem_cons]
  exact ⟨single _ _, Ignore.isDistinct_file _, single _ _, Ignore.isDistinct_file _,
    List.forall_mem_nil _⟩

theorem backwards_complete :
    ∃ shown, Ignore.Complete shown mixedEntries (backwards mixedFiles "w") :=
  ⟨_, (@Ignore.listing_complete "w" mixedFiles ["w"] mixedEntries rfl rfl mixedEntries_isDistinct
    rfl).perm (List.reverse_perm _).symm⟩

theorem select_backwards :
    select (backwards mixedFiles "w") = [["a", "y.go"], ["a.b", "x.go"]] := by
  have listed : ((backwards mixedFiles "w").filter isSource).map Ignore.Entry.names =
      [["a.b", "x.go"], ["a", "y.go"]] := by decide
  have order : precedes ["a.b", "x.go"] ["a", "y.go"] = false := by decide
  rw [select, listed]
  simp [List.mergeSort, List.MergeSort.Internal.splitInTwo, order]

theorem collects_exactly_backwards :
    mixedFiles.exists? "v" = false ∧
    collectBy backwards mixedFiles "v" = .error (.notFound "v") ∧
    collectBy backwards mixedFiles "w/notes.txt" = .ok ["w/notes.txt"] ∧
    mixedFiles.IsNamed ∧ mixedFiles.node "w" = .ok (.directory mixedEntries) ∧
    (∃ shown files, Ignore.Complete shown mixedEntries (backwards mixedFiles "w") ∧
      Collected backwards mixedFiles "w" shown mixedEntries files) ∧
    collectBy backwards mixedFiles "w" = .ok ["w/a/y.go", "w/a.b/x.go"] ∧
    Reported mixedFiles ["w/a/y.go", "w/a.b/x.go"] (reportsBy backwards mixedFiles "w") := by
  have missing : mixedFiles.exists? "v" = false := rfl
  have notes : mixedFiles.node "w/notes.txt" = .ok (.file ⟨#[]⟩) := rfl
  have found : mixedFiles.node "w" = .ok (.directory mixedEntries) := rfl
  have collects : collectBy backwards mixedFiles "w" = .ok ["w/a/y.go", "w/a.b/x.go"] := by
    rw [collectBy_directory found, select_backwards]
    rfl
  obtain ⟨none, -⟩ := collects_exactly backwards mixedFiles "v"
  obtain ⟨-, one, -⟩ := collects_exactly backwards mixedFiles "w/notes.txt"
  obtain ⟨-, -, directory, -, outcome⟩ := collects_exactly backwards mixedFiles "w"
  obtain ⟨shown, complete⟩ := backwards_complete
  obtain ⟨files, collected⟩ := directory _ shown mixedFiles_isNamed found complete
  exact ⟨missing, none missing, one _ notes, mixedFiles_isNamed, found,
    ⟨shown, files, complete, collected⟩, collects, outcome _ collects⟩

end Source

end LexicalReport
