import LexicalReport.Proofs.Scan.Lead
import LexicalReport.Proofs.Scan.Tiling

/-! Comments and faults do not disturb the tokens around them. If blanks are put in their place,
line ends apart, the tokens and their places stay as they are, and no fault is left. -/

namespace LexicalReport.Scan

open Token (Kind)

def blankChar (c : Char) : Char :=
  if c = '\n' then '\n' else ' '

def Content.isKept : Content → Bool
  | .skipped => true
  | .token _ => true
  | .comment => false
  | .fault _ => false

namespace Segment

def blanked (x : Segment) : List Char :=
  if x.content.isKept then x.text else x.text.map blankChar

def remains (x : Segment) : List Segment :=
  if x.content.isKept then [x] else x.text.map (fun c => ⟨.skipped, [blankChar c]⟩)

end Segment

def blankedText (cs : List Char) : List Char :=
  (segments cs).flatMap Segment.blanked

/-- A source with blanks in place of its comments and of the texts of its faults. -/
def blanked (source : String) : String :=
  String.ofList (blankedText source.toList)

theorem isSkipped_blankChar (c : Char) : isSkipped (blankChar c) = true := by
  unfold blankChar
  split <;> rfl

theorem segments_blanks (text rest : List Char) : segments (text.map blankChar ++ rest) =
    text.map (fun c => ⟨.skipped, [blankChar c]⟩) ++ segments rest := by
  induction text with
  | nil => rfl
  | cons c text ih =>
    rw [List.map_cons, List.cons_append, segments_of_isSkipped (isSkipped_blankChar c), ih,
      List.map_cons, List.cons_append]

theorem contentAt_point (rest : List Char) : (contentAt '.' rest).1.isKept = true := by
  rw [contentAt_eq_lead, leadOf_point]
  split
  · rename_i digit
    have plain : radixOf? ('.' :: rest) = none := rfl
    have float := (plainNumeral_point digit).1
    rw [← numeral_of_radixOf?_none plain] at float
    rw [Lead.content, numberContent, float]
    rfl
  · have dot : (operatorAt ('.' :: rest)).isSome = true := by
      rw [operatorAt, Option.isSome_map, List.find?_isSome]
      exact ⟨(['.'], .dot), by decide, rfl⟩
    obtain ⟨⟨kind, n⟩, found⟩ := Option.isSome_iff_exists.mp dot
    rw [Lead.content, operatorContent, found]
    rfl

theorem blankedText_nil : blankedText [] = [] := by
  rw [blankedText, segments_nil, List.flatMap_nil]

theorem blankedText_cons (c : Char) (rest : List Char) : blankedText (c :: rest) =
    Segment.blanked ⟨(contentAt c rest).1, c :: rest.take (contentAt c rest).2⟩ ++
      blankedText (rest.drop (contentAt c rest).2) := by
  rw [blankedText, segments, List.flatMap_cons]
  rfl

/-- The blanked text begins as the text does, and where it departs from it, it has a blank in place
of something that is not a point. -/
theorem blankedText_departs (cs : List Char) : ∃ kept x y, cs = kept ++ x ∧
    blankedText cs = kept ++ y ∧ AtBreak y ∧ x.head? ≠ some '.' := by
  fun_induction segments cs with
  | case1 => exact ⟨[], [], [], rfl, blankedText_nil, by simp [AtBreak], by simp⟩
  | case2 c rest found ih =>
    rw [blankedText_cons]
    by_cases stays : (contentAt c rest).1.isKept = true
    · obtain ⟨kept, x, y, same, blanked, stop, point⟩ := ih
      refine ⟨c :: rest.take (contentAt c rest).2 ++ kept, x, y, ?_, ?_, stop, point⟩
      · rw [List.append_assoc, ← same, List.cons_append, List.take_append_drop]
      · rw [blanked, Segment.blanked, if_pos stays, List.append_assoc]
    · refine ⟨[], c :: rest, _, rfl, rfl, ?_, ?_⟩
      · rw [Segment.blanked, if_neg stays]
        intro d head
        cases head
        exact isSkipped_blankChar c
      · intro head
        cases head
        exact stays (contentAt_point rest)

theorem contentAt_skipped {c : Char} {rest : List Char} {n : Nat}
    (found : contentAt c rest = (.skipped, n)) : isSkipped c = true ∧ n = 0 := by
  have describes := contentAt_describes c rest
  rw [found] at describes
  obtain ⟨d, listed, text⟩ := describes
  cases (List.cons.inj text).1
  have skipped := isSkipped_iff.mpr listed
  rw [contentAt_of_isSkipped skipped, Prod.mk.injEq] at found
  exact ⟨skipped, found.2.symm⟩

theorem segments_token_blankedText {c : Char} {rest : List Char} {k : Kind} {n : Nat}
    (found : contentAt c rest = (.token k, n)) :
    segments (c :: rest.take n ++ blankedText (rest.drop n)) =
      ⟨.token k, c :: rest.take n⟩ :: segments (blankedText (rest.drop n)) := by
  obtain ⟨kept, x, y, same, blanked, stop, point⟩ := blankedText_departs (rest.drop n)
  have bound := contentAt_le c rest
  rw [found] at bound
  have length : (rest.take n).length = n := List.length_take_of_le bound
  have whole : (rest.take n ++ kept) ++ x = rest := by
    rw [List.append_assoc, ← same, List.take_append_drop]
  have inside : n ≤ (rest.take n ++ kept).length := by
    rw [List.length_append, length]
    exact Nat.le_add_right n kept.length
  rw [← whole] at found
  have again := contentAt_shared stop found inside (fun head => absurd head point)
  rw [List.append_assoc, ← blanked] at again
  refine segments_of_content ?_
  rw [again, length]

theorem segments_blankedText (cs : List Char) :
    segments (blankedText cs) = (segments cs).flatMap Segment.remains := by
  fun_induction segments cs with
  | case1 => rw [blankedText_nil, segments_nil, List.flatMap_nil]
  | case2 c rest found ih =>
    rw [blankedText_cons, List.flatMap_cons, ← ih]
    obtain ⟨content, n, same⟩ : ∃ content n, contentAt c rest = (content, n) := ⟨_, _, rfl⟩
    simp only [found, same]
    cases content with
    | comment | fault f => exact segments_blanks _ _
    | skipped =>
      obtain ⟨skipped, rfl⟩ := contentAt_skipped same
      exact segments_of_isSkipped skipped _
    | token k => exact segments_token_blankedText same

theorem after_blanks (p : Place) (text : List Char) :
    p.after (text.map blankChar) = p.after text := by
  induction text generalizing p with
  | nil => rfl
  | cons c text ih =>
    have same : p.next (blankChar c) = p.next c := by
      unfold blankChar Place.next
      by_cases line : c = '\n'
      · rw [if_pos line, if_pos rfl, if_pos line]
      · rw [if_neg line, if_neg line]
        rfl
    rw [List.map_cons, Place.after, List.foldl_cons, same]
    exact ih _

theorem after_blanked (p : Place) (x : Segment) : p.after x.blanked = p.after x.text := by
  unfold Segment.blanked
  split
  · rfl
  · exact after_blanks p x.text

theorem remains_text (x : Segment) : x.remains.flatMap Segment.text = x.blanked := by
  unfold Segment.remains Segment.blanked
  split
  · exact List.flatMap_singleton _ _
  · rw [List.flatMap_map]
    exact List.map_eq_flatMap.symm

theorem filterMap_locate_eq_nil {α : Type} {f : Located → Option α} {xs : List Segment}
    (none : ∀ x ∈ xs, ∀ p, f ⟨p, x⟩ = .none) (p : Place) : (locate p xs).filterMap f = [] := by
  induction xs generalizing p with
  | nil => rfl
  | cons x xs ih =>
    rw [locate, List.filterMap_cons, none x List.mem_cons_self p]
    exact ih (fun y later => none y (List.mem_cons_of_mem x later)) _

theorem remains_tokens (p : Place) (x : Segment) :
    (locate p x.remains).filterMap Located.token? = (locate p [x]).filterMap Located.token? := by
  unfold Segment.remains
  split
  · rfl
  · rename_i gone
    rw [filterMap_locate_eq_nil, filterMap_locate_eq_nil]
    · rcases x with ⟨_ | _ | kind | f, text⟩ <;> simp_all [Content.isKept, Located.token?]
    · simp [Located.token?]

theorem remains_not_fault {x y : Segment} (inside : y ∈ x.remains) (p : Place) :
    Located.diagnostic? ⟨p, y⟩ = none := by
  unfold Segment.remains at inside
  split at inside
  · rename_i kept
    obtain rfl := List.mem_singleton.mp inside
    rcases y with ⟨_ | _ | kind | f, text⟩
    · rfl
    · rfl
    · rfl
    · cases kept
  · obtain ⟨c, -, rfl⟩ := List.mem_map.mp inside
    rfl

theorem locate_remains_tokens (p : Place) (xs : List Segment) :
    (locate p (xs.flatMap Segment.remains)).filterMap Located.token? =
      (locate p xs).filterMap Located.token? := by
  induction xs generalizing p with
  | nil => rfl
  | cons x xs ih =>
    rw [List.flatMap_cons, locate_append, List.filterMap_append, remains_text, after_blanked, ih,
      remains_tokens, ← List.filterMap_append]
    rfl

theorem locate_remains_faults (p : Place) (xs : List Segment) :
    (locate p (xs.flatMap Segment.remains)).filterMap Located.diagnostic? = [] := by
  refine filterMap_locate_eq_nil (fun y inside => ?_) p
  obtain ⟨x, -, part⟩ := List.mem_flatMap.mp inside
  exact remains_not_fault part

/-- A source with its comments and faults blanked has the same tokens at the same places, and no
errors. -/
theorem ofText_blanked (source : String) :
    ofText (blanked source) = ⟨(ofText source).tokens, []⟩ := by
  rw [ofText_eq, ofText_eq, blanked, String.toList_ofList, segments_blankedText, ofSegments,
    locate_remains_tokens, locate_remains_faults]
  rfl

example : blanked "a /*b\nc*/ 0x @" = "a    \n        " := by decide +kernel

end LexicalReport.Scan
