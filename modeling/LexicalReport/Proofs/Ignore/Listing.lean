import LexicalReport.Ignore.Listing
import LexicalReport.Proofs.Files.Standing

/-! A listing is complete. It has every entry below a directory that is shown and to which shown
directories lead, and it has each of them once. -/

namespace LexicalReport.Ignore

open Files (Entries Node FileSystem Path)

/-- A list of the entries below a directory, in any order: those that are shown and do not lie in a
directory that is not, each of them once. -/
structure Complete (shown : List String → Bool) (entries : Entries) (listed : List Entry) :
    Prop where
  once : (listed.map Entry.names).Nodup
  mem : ∀ names isFile, ⟨names, isFile⟩ ∈ listed ↔
    names ≠ [] ∧ (∃ node, entries.at? names = some node ∧ isFile = !node.isDirectory) ∧
      ∀ above, above <+: names → above ≠ [] → shown above = true

theorem Complete.perm {shown : List String → Bool} {entries : Entries} {listed other : List Entry}
    (complete : Complete shown entries listed) (same : listed.Perm other) :
    Complete shown entries other where
  once := (same.map _).nodup_iff.mp complete.once
  mem names isFile := by rw [← same.mem_iff, complete.mem]

def IsDistinct (node : Node) : Prop :=
  ∀ place inner, node.below? place = some (.directory inner) → (inner.map Prod.fst).Nodup

namespace Root

def leads (root : Root) : List Level → String → Node → List String → Bool
  | _, _, _, [] => true
  | _, _, .file _, _ :: _ => false
  | levels, path, .directory entries, name :: rest =>
    let levels := .ofEntries false path.toList entries :: levels
    match Entries.find? entries name with
    | none => false
    | some next => root.shows levels (Path.join path name) name next.isDirectory &&
        root.leads levels (Path.join path name) next rest

def Lists (root : Root) (levels : List Level) (path : String) (node : Node) (names : List String)
    (isFile : Bool) : Prop :=
  (∃ last, node.below? names = some last ∧ isFile = !last.isDirectory) ∧
    root.leads levels path node names = true

def ListsAmong (root : Root) (levels : List Level) (path : String) (entries : Entries)
    (names : List String) (isFile : Bool) : Prop :=
  ∃ name rest next, names = name :: rest ∧ entries.find? name = some next ∧
    root.shows levels (Path.join path name) name next.isDirectory = true ∧
    root.Lists levels (Path.join path name) next rest isFile

end Root

variable {root : Root} {levels : List Level} {path : String} {names : List String}

theorem isDistinct_file (content : ByteArray) : IsDistinct (.file content) := by
  intro place inner found
  cases place <;> cases found

theorem isDistinct_directory {entries : Entries} (names : (entries.map Prod.fst).Nodup)
    (each : ∀ entry ∈ entries, IsDistinct entry.2) : IsDistinct (.directory entries) := by
  intro place inner found
  cases place with
  | nil =>
    rw [Node.below?_nil] at found
    cases found
    exact names
  | cons name place =>
    rw [Entries.below?_cons] at found
    obtain ⟨next, first, found⟩ := Option.bind_eq_some_iff.mp found
    exact each _ (Entries.mem_of_find? first) place inner found

theorem IsDistinct.below {entries : Entries} (distinct : IsDistinct (.directory entries))
    {name : String} {node : Node} (found : entries.find? name = some node) : IsDistinct node := by
  intro place inner there
  refine distinct (name :: place) inner ?_
  rw [Entries.below?_cons, found]
  exact there

theorem IsDistinct.tail {entry : String × Node} {rest : Entries}
    (distinct : IsDistinct (.directory (entry :: rest))) :
    entry.1 ∉ rest.map Prod.fst ∧ IsDistinct (.directory rest) := by
  have names := distinct [] _ (Node.below?_nil _)
  rw [List.map_cons, List.nodup_cons] at names
  refine ⟨names.1, fun place inner there => ?_⟩
  cases place with
  | nil =>
    rw [Node.below?_nil] at there
    cases there
    exact names.2
  | cons name place =>
    refine distinct (name :: place) inner ?_
    rw [Entries.below?_cons] at there ⊢
    obtain ⟨next, found, there⟩ := Option.bind_eq_some_iff.mp there
    have other : entry.1 ≠ name := by
      rintro rfl
      exact names.1 (Entries.name_mem_of_find? found)
    rw [Entries.find?_cons, if_neg other, found]
    exact there

theorem lists_directory_iff {entries : Entries} {isFile : Bool} :
    root.Lists levels path (.directory entries) names isFile ↔
      names = [] ∧ isFile = false ∨
      root.ListsAmong (.ofEntries false path.toList entries :: levels) path entries names
        isFile := by
  cases names with
  | nil =>
    constructor
    · rintro ⟨⟨last, found, rfl⟩, -⟩
      rw [Node.below?_nil] at found
      cases found
      exact .inl ⟨rfl, rfl⟩
    · rintro (⟨-, rfl⟩ | ⟨_, _, _, same, -⟩)
      · exact ⟨⟨_, Node.below?_nil _, rfl⟩, rfl⟩
      · cases same
  | cons name rest =>
    constructor
    · rintro ⟨⟨last, found, same⟩, leads⟩
      rw [Entries.below?_cons] at found
      obtain ⟨next, first, found⟩ := Option.bind_eq_some_iff.mp found
      rw [Root.leads, first, Bool.and_eq_true] at leads
      exact .inr ⟨name, rest, next, rfl, first, leads.1, ⟨last, found, same⟩, leads.2⟩
    · rintro (⟨same, -⟩ | ⟨_, _, next, same, first, shows, ⟨last, found, kind⟩, leads⟩)
      · cases same
      · cases same
        refine ⟨⟨last, ?_, kind⟩, ?_⟩
        · rw [Entries.below?_cons, first]
          exact found
        · rw [Root.leads, first, Bool.and_eq_true]
          exact ⟨shows, leads⟩

theorem listsAmong_cons_iff {entry : String × Node} {rest : Entries}
    (other : entry.1 ∉ rest.map Prod.fst) {isFile : Bool} :
    root.ListsAmong levels path (entry :: rest) names isFile ↔
      (∃ below, names = entry.1 :: below ∧
        root.shows levels (Path.join path entry.1) entry.1 entry.2.isDirectory = true ∧
        root.Lists levels (Path.join path entry.1) entry.2 below isFile) ∨
      root.ListsAmong levels path rest names isFile := by
  constructor
  · rintro ⟨name, below, next, rfl, found, shows, lists⟩
    rw [Entries.find?_cons] at found
    split at found
    · rename_i same
      cases same
      cases found
      exact .inl ⟨below, rfl, shows, lists⟩
    · exact .inr ⟨name, below, next, rfl, found, shows, lists⟩
  · rintro (⟨below, rfl, shows, lists⟩ | ⟨name, below, next, rfl, found, shows, lists⟩)
    · refine ⟨entry.1, below, entry.2, rfl, ?_, shows, lists⟩
      rw [Entries.find?_cons, if_pos rfl]
    · refine ⟨name, below, next, rfl, ?_, shows, lists⟩
      have apart : entry.1 ≠ name := by
        rintro rfl
        exact other (Entries.name_mem_of_find? found)
      rw [Entries.find?_cons, if_neg apart, found]

mutual

theorem mem_listNode (root : Root) (levels : List Level) (path : String) (names : List String) :
    (node : Node) → IsDistinct node → ∀ found isFile,
    (⟨found, isFile⟩ ∈ listNode root levels path names node ↔
      ∃ below, found = names ++ below ∧ root.Lists levels path node below isFile)
  | .file content, _, found, isFile => by
    rw [listNode, List.mem_singleton, Entry.mk.injEq]
    constructor
    · rintro ⟨rfl, rfl⟩
      exact ⟨[], (List.append_nil _).symm, ⟨_, Node.below?_nil _, rfl⟩, rfl⟩
    · rintro ⟨below, rfl, ⟨last, there, rfl⟩, -⟩
      cases below with
      | nil =>
        cases there
        exact ⟨List.append_nil _, rfl⟩
      | cons name below => cases there
  | .directory entries, distinct, found, isFile => by
    rw [listNode, List.mem_cons, mem_listEntries _ _ _ _ _ distinct, Entry.mk.injEq]
    constructor
    · rintro (⟨rfl, rfl⟩ | ⟨below, rfl, among⟩)
      · exact ⟨[], (List.append_nil _).symm, lists_directory_iff.mpr (.inl ⟨rfl, rfl⟩)⟩
      · exact ⟨below, rfl, lists_directory_iff.mpr (.inr among)⟩
    · rintro ⟨below, rfl, lists⟩
      obtain ⟨rfl, rfl⟩ | among := lists_directory_iff.mp lists
      · exact .inl ⟨List.append_nil _, rfl⟩
      · exact .inr ⟨below, rfl, among⟩

theorem mem_listEntries (root : Root) (levels : List Level) (path : String) (names : List String) :
    (entries : List (String × Node)) → IsDistinct (.directory entries) → ∀ found isFile,
    (⟨found, isFile⟩ ∈ listEntries root levels path names entries ↔
      ∃ below, found = names ++ below ∧ root.ListsAmong levels path entries below isFile)
  | [], _, found, isFile => by
    rw [listEntries]
    constructor
    · exact fun inside => absurd inside List.not_mem_nil
    · rintro ⟨_, -, _, _, _, -, found, -⟩
      cases found
  | (name, node) :: rest, distinct, found, isFile => by
    have first : Entries.find? ((name, node) :: rest) name = some node := by
      rw [Entries.find?_cons, if_pos rfl]
    rw [listEntries, List.mem_append, mem_listEntries _ _ _ _ _ distinct.tail.2]
    have node_iff := mem_listNode root levels (Path.join path name) (names ++ [name]) node
      (distinct.below first) found isFile
    have here : ⟨found, isFile⟩ ∈ (if root.shows levels (Path.join path name) name
          node.isDirectory then
        listNode root levels (Path.join path name) (names ++ [name]) node else []) ↔
        ∃ below, found = names ++ name :: below ∧
          root.shows levels (Path.join path name) name node.isDirectory = true ∧
          root.Lists levels (Path.join path name) node below isFile := by
      split
      · rename_i shows
        simp only [node_iff, shows, List.append_assoc, List.singleton_append, true_and]
      · rename_i hides
        simp [hides]
    simp only [here, listsAmong_cons_iff distinct.tail.1]
    constructor
    · rintro (⟨below, rfl, shows, lists⟩ | ⟨below, rfl, among⟩)
      · exact ⟨_, rfl, .inl ⟨below, rfl, shows, lists⟩⟩
      · exact ⟨_, rfl, .inr among⟩
    · rintro ⟨_, rfl, ⟨below, rfl, shows, lists⟩ | among⟩
      · exact .inl ⟨below, rfl, shows, lists⟩
      · exact .inr ⟨_, rfl, among⟩

end

mutual

theorem nodup_listNode (root : Root) (levels : List Level) (path : String) (names : List String) :
    (node : Node) → IsDistinct node →
    ((listNode root levels path names node).map Entry.names).Nodup
  | .file content, _ => List.pairwise_singleton _ _
  | .directory entries, distinct => by
    rw [listNode, List.map_cons, List.nodup_cons]
    refine ⟨fun inside => ?_, nodup_listEntries _ _ _ _ _ distinct⟩
    obtain ⟨⟨_, isFile⟩, listed, rfl⟩ := List.mem_map.mp inside
    obtain ⟨_, same, name, rest, _, rfl, -⟩ :=
      (mem_listEntries _ _ _ _ _ distinct _ isFile).mp listed
    cases List.self_eq_append_right.mp same

theorem nodup_listEntries (root : Root) (levels : List Level) (path : String)
    (names : List String) : (entries : List (String × Node)) → IsDistinct (.directory entries) →
    ((listEntries root levels path names entries).map Entry.names).Nodup
  | [], _ => List.nodup_nil
  | (name, node) :: rest, distinct => by
    have first : Entries.find? ((name, node) :: rest) name = some node := by
      rw [Entries.find?_cons, if_pos rfl]
    have below := distinct.below first
    rw [listEntries, List.map_append, List.nodup_append]
    refine ⟨?_, nodup_listEntries _ _ _ _ _ distinct.tail.2, ?_⟩
    · split
      · exact nodup_listNode _ _ _ _ _ below
      · exact List.nodup_nil
    · -- the name after the given ones tells what is listed here from what is listed later
      intro one here other there same
      subst same
      obtain ⟨⟨_, isFile⟩, later, rfl⟩ := List.mem_map.mp there
      obtain ⟨⟨_, kind⟩, now, begins⟩ := List.mem_map.mp here
      split at now
      · obtain ⟨below, same, -⟩ := (mem_listNode _ _ _ _ _ below _ kind).mp now
        obtain ⟨_, whole, next, _, _, rfl, found, -⟩ :=
          (mem_listEntries _ _ _ _ _ distinct.tail.2 _ isFile).mp later
        dsimp only at begins whole
        rw [← begins, same, List.append_assoc, List.append_cancel_left_eq] at whole
        cases whole
        exact distinct.tail.1 (Entries.name_mem_of_find? found)
      · cases now

end

theorem leads_of_append {above rest : List String} {node : Node}
    (leads : root.leads levels path node (above ++ rest) = true) :
    root.leads levels path node above = true := by
  induction above generalizing levels path node with
  | nil => cases node <;> rfl
  | cons name above ih =>
    cases node with
    | file content => cases leads
    | directory entries =>
      rw [List.cons_append, Root.leads] at leads
      rw [Root.leads]
      cases found : Entries.find? entries name with
      | none =>
        rw [found] at leads
        cases leads
      | some next =>
        rw [found] at leads
        simp only [Bool.and_eq_true] at leads ⊢
        exact ⟨leads.1, ih leads.2⟩

/-- The listing of a directory is complete, unless its path is a lone dash. -/
theorem listing_complete {fs : FileSystem} {place : List String} {entries : Entries}
    (reached : fs.place path = .ok place) (found : fs.node? place = some (.directory entries))
    (distinct : IsDistinct (.directory entries)) (named : (Path.ofText path).isDash = false) :
    Complete (Root.leads ⟨path, place⟩ (levelsAbove fs place) path (.directory entries)) entries
      (listing fs path) := by
  have listed : listing fs path = listEntries ⟨path, place⟩
      (.ofEntries false path.toList entries :: levelsAbove fs place) path [] entries := by
    rw [listing, reached]
    simp only [found, named, Bool.false_eq_true, if_false]
  rw [listed]
  refine ⟨nodup_listEntries _ _ _ _ _ distinct, fun names isFile => ?_⟩
  have lists := @lists_directory_iff ⟨path, place⟩ (levelsAbove fs place) path names entries isFile
  rw [mem_listEntries _ _ _ _ _ distinct]
  constructor
  · rintro ⟨_, rfl, among⟩
    obtain ⟨⟨last, there, kind⟩, leads⟩ := lists.mpr (.inr among)
    obtain ⟨_, _, _, rfl, -⟩ := among
    refine ⟨List.cons_ne_nil _ _, ⟨last, there, kind⟩, fun above begins _ => ?_⟩
    obtain ⟨more, whole⟩ := begins
    rw [← whole] at leads
    exact leads_of_append leads
  · rintro ⟨further, last, shown⟩
    obtain ⟨empty, -⟩ | among := lists.mp ⟨last, shown names List.prefix_rfl further⟩
    · exact absurd empty further
    · exact ⟨names, rfl, among⟩

end LexicalReport.Ignore
