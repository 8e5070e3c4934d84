import LexicalReport.Proofs.Files.Growth
import Mathlib.Data.List.Induction

/-! Paths with further names at their end. Their parts are the parts of the path and the names, and
they lead to the entry that the names lead to from the place of the path, unless a name or the whole
path is too long. -/

namespace LexicalReport

theorem Text.pieces_eq_splitOnP {α : Type} (isSeparator : α → Bool) (xs : List α) :
    pieces isSeparator xs = xs.splitOnP isSeparator := by
  induction xs with
  | nil => rw [pieces, List.splitOnP_nil]
  | cons x xs ih =>
    rw [pieces, List.splitOnP_cons_eq_if_modifyHead, ih]
    cases first : xs.splitOnP isSeparator with
    | nil => exact absurd first (List.splitOnP_ne_nil isSeparator xs)
    | cons piece others => rfl

namespace Files

structure IsName (name : String) : Prop where
  solid : name.toList ≠ []
  whole : '/' ∉ name.toList
  plain : '\x00' ∉ name.toList
  here : name ≠ "."
  above : name ≠ ".."

instance (name : String) : Decidable (IsName name) :=
  decidable_of_iff (name.toList ≠ [] ∧ '/' ∉ name.toList ∧ '\x00' ∉ name.toList ∧
      name ≠ "." ∧ name ≠ "..")
    ⟨fun ⟨solid, whole, plain, here, above⟩ => ⟨solid, whole, plain, here, above⟩,
      fun ⟨solid, whole, plain, here, above⟩ => ⟨solid, whole, plain, here, above⟩⟩

def Node.IsNamed (node : Node) : Prop :=
  ∀ place last, node.below? place = some last → ∀ name ∈ place, IsName name

def FileSystem.IsNamed (fs : FileSystem) : Prop :=
  (Node.directory fs.root).IsNamed

namespace Node

theorem isNamed_file (content : ByteArray) : (file content).IsNamed := by
  intro place last found
  cases place with
  | nil => exact fun _ none => absurd none List.not_mem_nil
  | cons name place => cases found

theorem isNamed_directory {entries : Entries}
    (each : ∀ entry ∈ entries, IsName entry.1 ∧ entry.2.IsNamed) :
    (directory entries).IsNamed := by
  intro place last found
  cases place with
  | nil => exact fun _ none => absurd none List.not_mem_nil
  | cons name place =>
    rw [Entries.below?_cons] at found
    obtain ⟨next, first, found⟩ := Option.bind_eq_some_iff.mp found
    obtain ⟨isName, below⟩ := each _ (Entries.mem_of_find? first)
    exact List.forall_mem_cons.mpr ⟨isName, below place last found⟩

end Node

namespace Path

variable {base name : String} {names : List String}

theorem partsOf_append_slash (xs ys : List Char) :
    partsOf (xs ++ '/' :: ys) = partsOf xs ++ partsOf ys := by
  rw [partsOf, partsOf, partsOf, Text.pieces_eq_splitOnP, Text.pieces_eq_splitOnP,
    Text.pieces_eq_splitOnP, List.splitOnP_append_cons xs ys rfl, List.filter_append,
    List.map_append]

theorem partsOf_whole (solid : name.toList ≠ []) (whole : '/' ∉ name.toList) :
    partsOf name.toList = [name] := by
  have single : ∀ c ∈ name.toList, (c == '/') = false := by
    intro c inside
    rw [beq_eq_false_iff_ne]
    rintro rfl
    exact whole inside
  have filled : name.toList.isEmpty = false := by simpa using solid
  rw [partsOf, Text.pieces_eq_splitOnP, List.splitOnP_eq_singleton single]
  simp [filled]

theorem ofText_whole (solid : name.toList ≠ []) (whole : '/' ∉ name.toList) :
    ofText name = ⟨false, [name], false⟩ := by
  have first : name.toList.head? ≠ some '/' := fun slash => whole (List.mem_of_head? slash)
  have last : name.toList.getLast? ≠ some '/' := fun slash => whole (List.mem_of_getLast? slash)
  rw [ofText, partsOf_whole solid whole, decide_eq_false first, decide_eq_false last]

theorem toList_join (solid : base ≠ "") (name : String) :
    ∃ front, (base.toList = front ++ ['/'] ∨ base.toList = front) ∧
      (join base name).toList = front ++ '/' :: name.toList := by
  have filled : base.isEmpty = false := by simpa using solid
  rw [join, filled, Bool.false_or]
  split
  · rename_i closed
    obtain ⟨front, same⟩ := List.getLast?_eq_some_iff.mp (of_decide_eq_true closed)
    refine ⟨front, .inl same, ?_⟩
    rw [String.toList_append, same, List.append_assoc]
    rfl
  · refine ⟨base.toList, .inr rfl, ?_⟩
    rw [String.toList_append, String.toList_append, List.append_assoc]
    rfl

theorem ofText_join (filled : name.toList ≠ []) (whole : '/' ∉ name.toList) (base : String) :
    ofText (join base name) = ⟨(ofText base).absolute, (ofText base).parts ++ [name], false⟩ := by
  by_cases solid : base = ""
  · subst solid
    have alone : join "" name = name := by simp [join]
    rw [alone, ofText_whole filled whole]
    rfl
  · obtain ⟨front, begins, joined⟩ := toList_join solid name
    have parts : partsOf base.toList = partsOf front := by
      obtain closed | same := begins
      · rw [closed, partsOf_append_slash]
        exact List.append_nil _
      · rw [same]
    have absolute : (front ++ '/' :: name.toList).head? = base.toList.head? := by
      obtain closed | same := begins
      · rw [closed]
        cases front <;> rfl
      · have begun : base.toList ≠ [] := by simpa using solid
        rw [← same, List.head?_append_of_ne_nil _ begun]
    have closed : (front ++ '/' :: name.toList).getLast? ≠ some '/' := by
      rw [List.getLast?_append_cons, List.getLast?_cons_of_ne_nil filled]
      exact fun last => whole (List.mem_of_getLast? last)
    rw [ofText, ofText, joined, absolute, partsOf_append_slash, partsOf_whole filled whole, parts,
      decide_eq_false closed]

theorem join_ne_empty (solid : base ≠ "") (name : String) : join base name ≠ "" := by
  obtain ⟨front, -, joined⟩ := toList_join solid name
  intro empty
  rw [empty] at joined
  cases front <;> cases joined

theorem joinAll_append_singleton (base : String) (names : List String) (name : String) :
    joinAll base (names ++ [name]) = join (joinAll base names) name :=
  List.foldl_concat _ _ _ _

theorem joinAll_ne_empty (solid : base ≠ "") (names : List String) : joinAll base names ≠ "" := by
  induction names using List.reverseRecOn with
  | nil => exact solid
  | append_singleton names name ih =>
    rw [joinAll_append_singleton]
    exact join_ne_empty ih name

theorem ofText_joinAll (are : ∀ name ∈ names, IsName name) :
    ofText (joinAll base names) = ⟨(ofText base).absolute, (ofText base).parts ++ names,
      names.isEmpty && (ofText base).closed⟩ := by
  induction names using List.reverseRecOn with
  | nil => rw [List.append_nil]; rfl
  | append_singleton names name ih =>
    have isName := are name List.mem_concat_self
    rw [joinAll_append_singleton, ofText_join isName.solid isName.whole,
      ih fun other inside => are other (List.mem_append_left _ inside), List.append_assoc]
    simp

theorem filter_names (are : ∀ name ∈ names, IsName name) : names.filter (· != ".") = names :=
  List.filter_eq_self.mpr fun name inside => bne_iff_ne.mpr (are name inside).here

theorem components_joinAll (are : ∀ name ∈ names, IsName name) :
    (ofText (joinAll base names)).components = (ofText base).components ++ names := by
  rw [ofText_joinAll are, components, components]
  cases parts : (ofText base).parts with
  | nil =>
    cases names with
    | nil => rfl
    | cons name names =>
      have first := (are name List.mem_cons_self).here
      have others := filter_names fun other inside => are other (List.mem_cons_of_mem name inside)
      simp [first, others]
  | cons first rest =>
    simp only [List.cons_append, List.filter_append, filter_names are]
    split <;> rfl

theorem mem_toList_joinAll {c : Char} (solid : base ≠ "") (other : c ≠ '/')
    (inside : c ∈ (joinAll base names).toList) :
    c ∈ base.toList ∨ ∃ name ∈ names, c ∈ name.toList := by
  induction names using List.reverseRecOn with
  | nil => exact .inl inside
  | append_singleton names name ih =>
    obtain ⟨front, begins, joined⟩ := toList_join (joinAll_ne_empty solid names) name
    rw [joinAll_append_singleton, joined, List.mem_append, List.mem_cons] at inside
    obtain before | slash | last := inside
    · have earlier : c ∈ (joinAll base names).toList := by
        obtain same | same := begins <;> rw [same]
        · exact List.mem_append_left _ before
        · exact before
      obtain begin | ⟨name, member, within⟩ := ih earlier
      · exact .inl begin
      · exact .inr ⟨name, List.mem_append_left _ member, within⟩
    · exact absurd slash other
    · exact .inr ⟨name, List.mem_concat_self, last⟩

end Path

namespace FileSystem

variable {fs : FileSystem} {path : String} {place names : List String} {entries : Entries}

def Fits (path : String) (names : List String) : Prop :=
  (Path.joinAll path names).utf8ByteSize ≤ pathLimit ∧
    ∀ name ∈ names, name.utf8ByteSize ≤ nameLimit

instance (path : String) (names : List String) : Decidable (Fits path names) :=
  inferInstanceAs (Decidable (_ ∧ _))

theorem follow_names (found : fs.node? place = some (.directory entries)) {node : Node}
    (there : entries.at? names = some node) (are : ∀ name ∈ names, IsName name) :
    fs.follow place names =
      if ∀ name ∈ names, name.utf8ByteSize ≤ nameLimit then .ok (place ++ names)
      else .error .nameTooLong := by
  induction names generalizing place entries with
  | nil => simp [follow]
  | cons name names ih =>
    have isName := are name List.mem_cons_self
    rw [Entries.at?_cons] at there
    obtain ⟨next, first, there⟩ := Option.bind_eq_some_iff.mp there
    have opened : fs.entriesOf place = .ok entries := by rw [entriesOf, found]
    have lower : fs.node? (place ++ [name]) = some next := by
      rw [node?, Entries.at?_append found, Entries.at?_cons, first]
      exact Node.below?_nil next
    have rest : fs.follow (place ++ [name]) names =
        if ∀ name ∈ names, name.utf8ByteSize ≤ nameLimit then .ok (place ++ [name] ++ names)
        else .error .nameTooLong := by
      cases next with
      | directory inner =>
        exact ih lower there fun other inside => are other (List.mem_cons_of_mem name inside)
      | file content =>
        cases names with
        | nil => simp [follow]
        | cons other names => cases there
    rw [follow, opened]
    simp only [bind, Except.bind, isName.here, isName.above, first, if_false, Option.isSome_some,
      if_true, rest, List.forall_mem_cons, List.append_assoc, List.singleton_append]
    by_cases long : nameLimit < name.utf8ByteSize
    · rw [if_pos long, if_neg fun short => absurd short.1 (Nat.not_le.mpr long)]
    · simp only [if_neg long, Nat.not_lt.mp long, true_and]

theorem path_joinAll {p : Path} (parsed : FileSystem.path path = .ok p)
    (are : ∀ name ∈ names, IsName name) : FileSystem.path (Path.joinAll path names) =
      if (Path.joinAll path names).utf8ByteSize ≤ pathLimit then
        .ok (.ofText (Path.joinAll path names))
      else .error .nameTooLong := by
  unfold FileSystem.path at parsed
  split_ifs at parsed with nul empty long
  have solid : path ≠ "" := by simpa using empty
  have filled : (Path.joinAll path names).isEmpty = false := by
    simpa using Path.joinAll_ne_empty solid names
  have plain : (Path.joinAll path names).toList.any (· == '\x00') = false := by
    rw [List.any_eq_false]
    intro c inside same
    rw [beq_iff_eq.mp same] at inside
    obtain before | ⟨name, member, within⟩ := Path.mem_toList_joinAll solid (by decide) inside
    · exact nul (List.any_eq_true.mpr ⟨_, before, rfl⟩)
    · exact (are name member).plain within
  rw [FileSystem.path, plain, filled]
  simp only [Bool.false_eq_true, if_false]
  by_cases short : (Path.joinAll path names).utf8ByteSize ≤ pathLimit
  · rw [if_pos short, if_neg (Nat.not_lt.mpr short)]
  · rw [if_neg short, if_pos (Nat.not_le.mp short)]

theorem path_ne_empty {p : Path} (parsed : FileSystem.path path = .ok p) : path ≠ "" := by
  rintro rfl
  cases parsed

/-- The parts of a path lead to its place, also where a slash ends the path. -/
theorem follow_parts (reached : fs.place path = .ok place) :
    fs.follow (fs.start (.ofText path)) (Path.ofText path).parts = .ok place := by
  obtain ⟨p, parsed, followed⟩ := bind_eq_ok reached
  obtain rfl := path_eq_ok parsed
  rw [placeOf, follow_append] at followed
  obtain ⟨middle, first, last⟩ := bind_eq_ok followed
  rw [first]
  split at last
  · obtain ⟨inner, -, same⟩ := bind_eq_ok last
    rwa [if_pos rfl, follow] at same
  · exact last

theorem place_joinAll (reached : fs.place path = .ok place)
    (found : fs.node? place = some (.directory entries)) {node : Node}
    (there : entries.at? names = some node) (are : ∀ name ∈ names, IsName name)
    (further : names ≠ []) : fs.place (Path.joinAll path names) =
      if Fits path names then .ok (place ++ names) else .error .nameTooLong := by
  obtain ⟨p, parsed, -⟩ := bind_eq_ok reached
  have solid := path_ne_empty parsed
  rw [FileSystem.place, path_joinAll parsed are]
  by_cases short : (Path.joinAll path names).utf8ByteSize ≤ pathLimit
  · have ends : (names.isEmpty && (Path.ofText path).closed) = false := by simp [further]
    have followed := follow_parts reached
    rw [start] at followed
    rw [if_pos short]
    simp only [bind, Except.bind, placeOf, Path.ofText_joinAll are, start, ends,
      Bool.false_eq_true, if_false, List.append_nil, follow_append, followed,
      follow_names found there are, Fits, short, true_and]
  · rw [if_neg short, if_neg fun fits => short fits.1]
    rfl

/-- A file is written under a new name in a directory, or over an older file of that name, unless
the name or the whole path is too long. -/
theorem writeBytes_join {name : String} (reached : fs.place path = .ok place)
    (there : fs.standing place = .directory) (isName : IsName name)
    (free : fs.standing (place ++ [name]) ≠ .directory) (content : ByteArray) :
    fs.writeBytes (Path.join path name) content =
      if Fits path [name] then .ok (fs.putFile (place ++ [name]) content)
      else .error .nameTooLong := by
  obtain ⟨p, parsed, -⟩ := bind_eq_ok reached
  have named : FileSystem.path (Path.join path name) =
      if (Path.join path name).utf8ByteSize ≤ pathLimit then .ok (.ofText (Path.join path name))
      else .error .nameTooLong := by
    have single : Path.joinAll path [name] = Path.join path name := rfl
    rw [← single]
    exact path_joinAll parsed (List.forall_mem_singleton.mpr isName)
  have parts := Path.ofText_join isName.solid isName.whole path
  have closed : (Path.ofText (Path.join path name)).closed = false := congrArg Path.closed parts
  have last : (Path.ofText (Path.join path name)).parts.getLast? = some name := by
    rw [parts, List.getLast?_concat]
  have above : fs.follow (fs.start (.ofText (Path.join path name)))
      (Path.ofText (Path.join path name)).parts.dropLast = .ok place := by
    rw [parts, List.dropLast_concat]
    exact follow_parts reached
  have other : ¬ (name = "." ∨ name = "..") := not_or.mpr ⟨isName.here, isName.above⟩
  by_cases fits : Fits path [name]
  · have short := fits.2 name List.mem_cons_self
    have whole : (Path.join path name).utf8ByteSize ≤ pathLimit := fits.1
    rw [if_pos whole] at named
    rw [if_pos fits, writeBytes_eq_ok_iff]
    exact ⟨place, name, ⟨named, ⟨last, above, there, other, Nat.not_lt.mpr short⟩, closed, free⟩,
      rfl⟩
  · rw [if_neg fits, writeBytes, named]
    by_cases short : (Path.join path name).utf8ByteSize ≤ pathLimit
    · have long : nameLimit < name.utf8ByteSize :=
        Nat.not_le.mp fun small => fits ⟨short, List.forall_mem_singleton.mpr small⟩
      obtain ⟨entries, opened, -⟩ := parentPlace_of_directory above there
      rw [if_pos short]
      simp only [bind, Except.bind, last, opened, closed, Bool.false_eq_true, or_false, other,
        if_false, long, if_true]
    · rw [if_neg short]
      rfl

theorem readText_joinAll (reached : fs.place path = .ok place)
    (found : fs.node? place = some (.directory entries)) {content : ByteArray}
    (there : entries.at? names = some (.file content)) (are : ∀ name ∈ names, IsName name) :
    fs.readText (Path.joinAll path names) =
      if Fits path names then
        match String.fromUTF8? content with
        | some text => .ok text
        | none => .error .invalidText
      else .error .nameTooLong := by
  have further : names ≠ [] := by
    rintro rfl
    cases there
  have lower : fs.node? (place ++ names) = some (.file content) := by
    rw [node?, Entries.at?_append found, there]
  rw [readText, readBytes, node, place_joinAll reached found there are further]
  by_cases fits : Fits path names
  · cases decoded : String.fromUTF8? content with
    | some text | none => simp only [if_pos fits, bind, Except.bind, lower, decoded]
  · simp only [if_neg fits, bind, Except.bind]

end FileSystem

end Files

end LexicalReport
