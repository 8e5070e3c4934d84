import LexicalReport.Proofs.Scan.Tiling
import Mathlib.Algebra.Group.Nat.Defs
import Mathlib.Data.List.Induction
import Mathlib.Data.List.Nodup
import Mathlib.Data.Prod.Lex

/-! Places are exact. The place of a token or fault tells the number of line ends before its
segment, and the number of characters since the last of them; so it leads back to the segment, no
two of them share a place, and places grow along the text. The cursor keeps within its line and its
text. -/

namespace LexicalReport

namespace Scan

/-- The line and column just after a text: one more than the number of its line ends, and one more
than the number of characters after the last of them. -/
def lineColumn (before : List Char) : Nat × Nat :=
  (1 + before.count '\n', 1 + (before.reverse.takeWhile (· != '\n')).length)

def afterLines : Nat → List Char → List Char
  | 0, text => text
  | n + 1, text => afterLines n ((text.dropWhile (· != '\n')).drop 1)

/-- The part of a text that begins at a line and column, both counted from one. -/
def textAt (text : List Char) (place : Nat × Nat) : List Char :=
  (afterLines (place.1 - 1) text).drop (place.2 - 1)

def offsets : Nat → List Segment → List (Nat × Segment)
  | _, [] => []
  | i, x :: rest => (i, x) :: offsets (i + x.text.length) rest

def Precedes : Nat × Nat → Nat × Nat → Prop :=
  Prod.Lex (· < ·) (· < ·)

def Place.lineColumn (p : Place) : Nat × Nat :=
  (p.line.toNat, p.column.toNat)

end Scan

def Token.lineColumn (t : Token) : Nat × Nat :=
  (t.line.toNat, t.column.toNat)

def Diagnostic.lineColumn (d : Diagnostic) : Nat × Nat :=
  (d.line.toNat, d.column.toNat)

namespace Scan

theorem lineColumn_append_line (before : List Char) :
    lineColumn (before ++ ['\n']) = ((lineColumn before).1 + 1, 1) := by
  simp [lineColumn, Nat.add_assoc]

theorem lineColumn_append_other (before : List Char) {c : Char} (other : c ≠ '\n') :
    lineColumn (before ++ [c]) = ((lineColumn before).1, (lineColumn before).2 + 1) := by
  simp [lineColumn, other, List.count_append, Nat.add_assoc]

theorem lineColumn_le (before : List Char) :
    (lineColumn before).1 ≤ before.length + 1 ∧ (lineColumn before).2 ≤ before.length + 1 := by
  have lines : before.count '\n' ≤ before.length := List.count_le_length
  have columns := length_takeWhile_le (· != '\n') before.reverse
  rw [List.length_reverse] at columns
  simp only [lineColumn]
  omega

/-- A place counts the text before it, as far as its words reach. -/
theorem lineColumn_after {before : List Char} (short : before.length < 2 ^ 32 - 1) :
    (Place.first.after before).line.toNat = (lineColumn before).1 ∧
      (Place.first.after before).before + 1 = (lineColumn before).2 := by
  induction before using List.reverseRecOn with
  | nil => exact ⟨rfl, rfl⟩
  | append_singleton before c ih =>
    rw [List.length_append, List.length_singleton] at short
    obtain ⟨line, column⟩ := ih (by omega)
    have bound := (lineColumn_le before).1
    have step : Place.first.after (before ++ [c]) = (Place.first.after before).next c :=
      List.foldl_concat _ _ _ _
    rw [step, Place.next]
    by_cases ends : c = '\n'
    · rw [if_pos ends, ends, lineColumn_append_line]
      refine ⟨?_, rfl⟩
      rw [UInt32.toNat_add, line]
      exact Nat.mod_eq_of_lt (by simp only [UInt32.toNat_one]; omega)
    · rw [if_neg ends, lineColumn_append_other before ends]
      exact ⟨line, by rw [column]⟩

theorem place_lineColumn {before : List Char} (short : before.length < 2 ^ 32 - 1) :
    (Place.first.after before).lineColumn = lineColumn before := by
  obtain ⟨line, column⟩ := lineColumn_after short
  have bound := (lineColumn_le before).2
  rw [Place.lineColumn, line, Place.column, column, Nat.toUInt32_eq, UInt32.toNat_ofNat']
  rw [Nat.mod_eq_of_lt (by omega)]

theorem place_take {source : String} (short : source.length < 2 ^ 32 - 1) (i : Nat) :
    (Place.first.after (source.toList.take i)).lineColumn =
      lineColumn (source.toList.take i) := by
  refine place_lineColumn (Nat.lt_of_le_of_lt (List.length_take_le' _ _) ?_)
  rwa [String.length_toList]

theorem count_line_of_not_mem {text : List Char} (flat : '\n' ∉ text) : text.count '\n' = 0 :=
  List.count_eq_zero.mpr flat

theorem takeWhile_reverse_of_not_mem {text : List Char} (flat : '\n' ∉ text) :
    ∀ c ∈ text.reverse, (c != '\n') = true := by
  intro c inside
  rw [bne_iff_ne]
  rintro rfl
  exact flat (List.mem_reverse.mp inside)

theorem lineColumn_precedes (before : List Char) {more : List Char} (onward : more ≠ []) :
    Precedes (lineColumn before) (lineColumn (before ++ more)) := by
  rw [lineColumn, lineColumn, Precedes, List.count_append, List.reverse_append]
  by_cases ends : '\n' ∈ more
  · have lines : 0 < more.count '\n' := List.count_pos_iff.mpr ends
    exact Prod.Lex.left _ _ (by omega)
  · have columns : 0 < more.length := List.length_pos_of_ne_nil onward
    rw [count_line_of_not_mem ends,
      List.takeWhile_append_of_pos (takeWhile_reverse_of_not_mem ends), List.length_append,
      List.length_reverse]
    exact Prod.Lex.right _ (by omega)

theorem takeWhile_append_of_mem {p : Char → Bool} {c : Char} (stops : p c = false)
    {xs : List Char} (inside : c ∈ xs) (ys : List Char) :
    (xs ++ ys).takeWhile p = xs.takeWhile p := by
  rw [List.takeWhile_append, if_neg]
  intro all
  have whole := (List.takeWhile_prefix p).eq_of_length all
  rw [List.takeWhile_eq_self_iff.mp whole c inside] at stops
  cases stops

theorem takeWhile_concat_of_neg {p : Char → Bool} {c : Char} (stops : ¬ p c = true)
    (xs : List Char) : (xs ++ [c]).takeWhile p = xs.takeWhile p := by
  rw [List.takeWhile_append, List.takeWhile_cons_of_neg stops, List.append_nil]
  split
  · rename_i all
    exact ((List.takeWhile_prefix p).eq_of_length all).symm
  · rfl

theorem afterLines_append (before after : List Char) :
    (afterLines (before.count '\n') (before ++ after)).drop
      (before.reverse.takeWhile (· != '\n')).length = after := by
  induction before with
  | nil => rfl
  | cons c before ih =>
    rw [List.reverse_cons, List.cons_append]
    by_cases ends : c = '\n'
    · subst ends
      rw [List.count_cons_self, afterLines, List.dropWhile_cons_of_neg (by decide), List.drop_one,
        List.tail_cons, takeWhile_concat_of_neg (by decide)]
      exact ih
    · rw [List.count_cons_of_ne ends]
      by_cases lines : '\n' ∈ before
      · obtain ⟨n, count⟩ := Nat.exists_eq_add_one.mpr (List.count_pos_iff.mpr lines)
        rw [count, afterLines] at ih
        rw [takeWhile_append_of_mem (by decide) (List.mem_reverse.mpr lines), count, afterLines,
          List.dropWhile_cons_of_pos (by simpa using ends), ih]
      · have flat : '\n' ∉ c :: before := by
          rw [List.mem_cons, not_or]
          exact ⟨Ne.symm ends, lines⟩
        rw [count_line_of_not_mem lines, afterLines, ← List.reverse_cons,
          List.takeWhile_eq_self_iff.mpr (takeWhile_reverse_of_not_mem flat), List.length_reverse,
          ← List.cons_append, List.drop_left]

theorem textAt_lineColumn (before after : List Char) :
    textAt (before ++ after) (lineColumn before) = after := by
  rw [textAt, lineColumn, Nat.add_sub_cancel_left, Nat.add_sub_cancel_left]
  exact afterLines_append before after

theorem locate_eq_offsets (text before : List Char) (xs : List Segment)
    (whole : before ++ xs.flatMap Segment.text = text) :
    locate (Place.first.after before) xs = (offsets before.length xs).map
      (fun x => ⟨Place.first.after (text.take x.1), x.2⟩) := by
  induction xs generalizing before with
  | nil => rfl
  | cons x xs ih =>
    have further : (before ++ x.text) ++ xs.flatMap Segment.text = text := by
      rw [← whole, List.flatMap_cons, List.append_assoc]
    have begins : text.take before.length = before := by
      rw [← whole]
      exact List.take_left
    rw [locate, offsets, List.map_cons, begins, ← after_append, ih _ further, List.length_append]

theorem textAt_take (text : List Char) (i : Nat) :
    textAt text (lineColumn (text.take i)) = text.drop i := by
  have back := textAt_lineColumn (text.take i) (text.drop i)
  rwa [List.take_append_drop] at back

theorem mem_offsets {text : List Char} (before : List Char) {xs : List Segment}
    (whole : before ++ xs.flatMap Segment.text = text) {x : Nat × Segment}
    (inside : x ∈ offsets before.length xs) : x.2 ∈ xs ∧ x.2.text <+: text.drop x.1 := by
  induction xs generalizing before with
  | nil => cases inside
  | cons y xs ih =>
    have further : (before ++ y.text) ++ xs.flatMap Segment.text = text := by
      rw [← whole, List.flatMap_cons, List.append_assoc]
    rcases List.mem_cons.mp inside with rfl | later
    · rw [← further, List.append_assoc, List.drop_left]
      exact ⟨List.mem_cons_self, ⟨_, rfl⟩⟩
    · rw [← List.length_append] at later
      obtain ⟨member, stands⟩ := ih _ further later
      exact ⟨List.mem_cons_of_mem y member, stands⟩

theorem offsets_pairwise {i : Nat} {xs : List Segment} (solid : ∀ x ∈ xs, x.text ≠ []) :
    (offsets i xs).Pairwise (fun a b => a.1 < b.1) ∧ ∀ x ∈ offsets i xs, i ≤ x.1 := by
  induction xs generalizing i with
  | nil => exact ⟨.nil, fun _ none => absurd none List.not_mem_nil⟩
  | cons y xs ih =>
    have length := List.length_pos_of_ne_nil (solid y List.mem_cons_self)
    obtain ⟨grow, later⟩ := ih (i := i + y.text.length)
      (fun x inside => solid x (List.mem_cons_of_mem y inside))
    refine ⟨.cons (fun x inside => ?_) grow, fun x inside => ?_⟩
    · have bound := later x inside
      simp only
      omega
    · rcases List.mem_cons.mp inside with rfl | inside
      · exact Nat.le_refl _
      · exact Nat.le_trans (Nat.le_add_right _ _) (later x inside)

theorem Precedes.ne {a b : Nat × Nat} (before : Precedes a b) : a ≠ b := by
  rintro rfl
  cases before with
  | left _ _ line => exact Nat.lt_irrefl _ line
  | right _ column => exact Nat.lt_irrefl _ column

theorem locate_source (source : String) :
    locate .first (segments source.toList) = (offsets 0 (segments source.toList)).map
      (fun x => ⟨Place.first.after (source.toList.take x.1), x.2⟩) :=
  locate_eq_offsets source.toList [] _ (segments_text source.toList)

theorem offset_lt {text : List Char} {x : Nat × Segment}
    (inside : x ∈ offsets 0 (segments text)) : x.1 < text.length := by
  obtain ⟨member, stands⟩ := mem_offsets [] (segments_text text) inside
  have solid := List.length_pos_of_ne_nil (segments_describes text x.2 member).1
  have bound := stands.length_le
  rw [List.length_drop] at bound
  omega

theorem located_grow {source : String} (short : source.length < 2 ^ 32 - 1) :
    (locate .first (segments source.toList)).Pairwise
      (fun x y => Precedes x.place.lineColumn y.place.lineColumn) := by
  have solid := fun x inside => (segments_describes source.toList x inside).1
  rw [locate_source, List.pairwise_map]
  refine (offsets_pairwise (i := 0) solid).1.imp_of_mem fun {x y} _ inside less => ?_
  rw [place_take short, place_take short]
  have split := List.take_append_drop x.1 (source.toList.take y.1)
  rw [List.take_take, Nat.min_eq_left (Nat.le_of_lt less)] at split
  have bound := offset_lt inside
  have onward : (source.toList.take y.1).drop x.1 ≠ [] := by
    rw [← List.length_pos_iff, List.length_drop, List.length_take]
    omega
  rw [← split]
  exact lineColumn_precedes _ onward

theorem token?_eq_some {x : Located} {t : Token} (found : x.token? = some t) :
    x.segment.token? = some (t.kind, t.value) ∧ t.lineColumn = x.place.lineColumn ∧
      t.value.toList = x.segment.text := by
  rcases x with ⟨p, ⟨_ | _ | kind | f, text⟩⟩ <;> cases found
  exact ⟨rfl, rfl, String.toList_ofList⟩

theorem diagnostic?_eq_some {x : Located} {d : Diagnostic} (found : x.diagnostic? = some d) :
    x.segment.fault? = some d.fault ∧ d.lineColumn = x.place.lineColumn := by
  rcases x with ⟨p, ⟨_ | _ | kind | f, text⟩⟩ <;> cases found
  exact ⟨rfl, rfl⟩

/-- The cursors that a walk over a source comes by: those at which its steps begin, and, within a
step, those it advances to. -/
inductive Cursor.Reached (source : String) : Cursor → Prop
  | start : Reached source (.start source)
  | advance {s : Cursor} (reached : Reached source s) : Reached source s.advance
  | step {s t : Cursor} {c : Char} (reached : Reached source s) (next : s.peek? = some c)
      (steps : s.step? c = some t) : Reached source t

theorem Cursor.Reached.inText {source : String} {s : Cursor} (reached : Reached source s) :
    s.InText ∧ s.chars.size = source.length := by
  induction reached with
  | start => exact ⟨inText_start source, by simp [Cursor.start, String.length_toList]⟩
  | advance _ ih => exact ⟨inText_advance ih.1, by rw [advance_chars, ih.2]⟩
  | step _ next steps ih =>
    obtain ⟨rest, ahead⟩ := ahead_of_peek? next
    rw [step?_eq ih.1 ahead] at steps
    cases steps
    exact ⟨inText_taking ih.1 _, by rw [(taking_place_inputs _ _).1, ih.2]⟩

structure PlacesExact (source : String) : Prop where
  tokens : (ofText source).tokens.map (fun t => (t.kind, t.value, t.lineColumn)) =
    (offsets 0 (segments source.toList)).filterMap (fun x =>
      x.2.token?.map (fun t => (t.1, t.2, lineColumn (source.toList.take x.1))))
  errors : (ofText source).errors.map (fun d => (d.fault, d.lineColumn)) =
    (offsets 0 (segments source.toList)).filterMap (fun x =>
      x.2.fault?.map (fun f => (f, lineColumn (source.toList.take x.1))))
  found : ∀ t ∈ (ofText source).tokens, t.value.toList <+: textAt source.toList t.lineColumn
  distinct : ((ofText source).tokens.map Token.lineColumn ++
    (ofText source).errors.map Diagnostic.lineColumn).Nodup
  tokens_grow : (ofText source).tokens.Pairwise (fun a b => Precedes a.lineColumn b.lineColumn)
  errors_grow : (ofText source).errors.Pairwise (fun a b => Precedes a.lineColumn b.lineColumn)

theorem tokens_placed {source : String} (short : source.length < 2 ^ 32 - 1) :
    (ofText source).tokens.map (fun t => (t.kind, t.value, t.lineColumn)) =
      (offsets 0 (segments source.toList)).filterMap (fun x =>
        x.2.token?.map (fun t => (t.1, t.2, lineColumn (source.toList.take x.1)))) := by
  rw [ofText_eq, locate_source]
  simp only [ofSegments, List.filterMap_map, List.map_filterMap]
  refine List.filterMap_congr fun x _ => ?_
  rw [← place_take short]
  rcases x with ⟨i, ⟨_ | _ | kind | f, text⟩⟩ <;> rfl

theorem errors_placed {source : String} (short : source.length < 2 ^ 32 - 1) :
    (ofText source).errors.map (fun d => (d.fault, d.lineColumn)) =
      (offsets 0 (segments source.toList)).filterMap (fun x =>
        x.2.fault?.map (fun f => (f, lineColumn (source.toList.take x.1)))) := by
  rw [ofText_eq, locate_source]
  simp only [ofSegments, List.filterMap_map, List.map_filterMap]
  refine List.filterMap_congr fun x _ => ?_
  rw [← place_take short]
  rcases x with ⟨i, ⟨_ | _ | kind | f, text⟩⟩ <;> rfl

theorem token_found {source : String} (short : source.length < 2 ^ 32 - 1) {t : Token}
    (inside : t ∈ (ofText source).tokens) :
    t.value.toList <+: textAt source.toList t.lineColumn := by
  rw [ofText_eq, locate_source] at inside
  obtain ⟨x, member, found⟩ := List.mem_filterMap.mp inside
  obtain ⟨y, offset, rfl⟩ := List.mem_map.mp member
  obtain ⟨-, place, value⟩ := token?_eq_some found
  rw [place, value, place_take short, textAt_take]
  exact (mem_offsets [] (segments_text source.toList) offset).2

theorem tokens_grow {source : String} (short : source.length < 2 ^ 32 - 1) :
    (ofText source).tokens.Pairwise (fun a b => Precedes a.lineColumn b.lineColumn) := by
  rw [ofText_eq]
  refine (located_grow short).filterMap _ fun x y before a first b second => ?_
  rw [(token?_eq_some first).2.1, (token?_eq_some second).2.1]
  exact before

theorem errors_grow {source : String} (short : source.length < 2 ^ 32 - 1) :
    (ofText source).errors.Pairwise (fun a b => Precedes a.lineColumn b.lineColumn) := by
  rw [ofText_eq]
  refine (located_grow short).filterMap _ fun x y before a first b second => ?_
  rw [(diagnostic?_eq_some first).2, (diagnostic?_eq_some second).2]
  exact before

theorem places_distinct {source : String} (short : source.length < 2 ^ 32 - 1) :
    ((ofText source).tokens.map Token.lineColumn ++
      (ofText source).errors.map Diagnostic.lineColumn).Nodup := by
  have apart : ((locate .first (segments source.toList)).map (·.place.lineColumn)).Nodup :=
    List.pairwise_map.mpr ((located_grow short).imp Precedes.ne)
  refine List.nodup_append.mpr ⟨?_, ?_, ?_⟩
  · exact List.pairwise_map.mpr ((tokens_grow short).imp Precedes.ne)
  · exact List.pairwise_map.mpr ((errors_grow short).imp Precedes.ne)
  · rw [ofText_eq]
    rintro _ token _ error same
    obtain ⟨t, inTokens, rfl⟩ := List.mem_map.mp token
    obtain ⟨d, inErrors, rfl⟩ := List.mem_map.mp error
    obtain ⟨x, first, isToken⟩ := List.mem_filterMap.mp inTokens
    obtain ⟨y, second, isError⟩ := List.mem_filterMap.mp inErrors
    have places : x.place.lineColumn = y.place.lineColumn := by
      rw [← (token?_eq_some isToken).2.1, ← (diagnostic?_eq_some isError).2, same]
    obtain rfl := List.inj_on_of_nodup_map apart first second places
    rcases x with ⟨p, ⟨_ | _ | kind | f, text⟩⟩ <;> simp [Located.token?, Located.diagnostic?] at *

/-- The places of a scan are exact, and the walk that makes it always keeps its line start, its
position and the end of the text in this order, so that it has a result. -/
theorem ofText_places (source : String) (short : source.length < 2 ^ 32 - 1) :
    PlacesExact source ∧ (Cursor.start source).walk?.isSome = true ∧
      ∀ s, Cursor.Reached source s → s.lineStart ≤ s.position ∧ s.position ≤ source.length := by
  obtain ⟨last, walked, -⟩ := Cursor.walks_segments (Cursor.inText_start source)
  refine ⟨⟨tokens_placed short, errors_placed short, fun t => token_found short,
    places_distinct short, tokens_grow short, errors_grow short⟩, ?_, fun s reached => ?_⟩
  · rw [walked, Option.isSome_some]
  · obtain ⟨inText, size⟩ := reached.inText
    exact ⟨inText.lineStart_le, size ▸ inText.position_le⟩

theorem ofText_places_two_lines : "a @ b\n''\x60c\n\x60 d".length < 2 ^ 32 - 1 ∧
    PlacesExact "a @ b\n''\x60c\n\x60 d" :=
  ⟨by decide, (ofText_places _ (by decide)).1⟩

end Scan

end LexicalReport
