import LexicalReport.Proofs.Scan.Lead
import LexicalReport.Proofs.Scan.Tiling

/-! A token needs nothing of the text it was cut from. Its own text is cut as the same token
wherever a break follows it, so tokens from any sources can be written one after another, with a
blank or a line end between each two, and are found again. -/

namespace LexicalReport.Scan

open Token (Kind)

/-- A text that is cut as one token of a kind wherever a break follows it. -/
def StandsAlone (kind : Kind) (text : List Char) : Prop :=
  ∀ y, AtBreak y → segments (text ++ y) = ⟨.token kind, text⟩ :: segments y

theorem standsAlone_of_contentAt {c : Char} {rest : List Char} {k : Kind} {n : Nat}
    (found : contentAt c rest = (.token k, n)) : StandsAlone k (c :: rest.take n) := by
  intro y stop
  have bound := contentAt_le c rest
  rw [found] at bound
  have length : (rest.take n).length = n := List.length_take_of_le bound
  -- the shared part of the two texts is the token itself, so a point after it does no harm
  rw [← List.take_append_drop n rest] at found
  have alone := contentAt_shared stop found (Nat.le_of_eq length.symm) (fun _ => length.symm)
  refine segments_of_content ?_
  rw [alone, length]

theorem standsAlone_of_mem {cs text : List Char} {k : Kind}
    (inside : ⟨.token k, text⟩ ∈ segments cs) : StandsAlone k text := by
  fun_induction segments cs with
  | case1 => exact absurd inside List.not_mem_nil
  | case2 c rest found ih =>
    rcases List.mem_cons.mp inside with here | later
    · obtain ⟨content, rfl⟩ := Segment.mk.inj here
      exact standsAlone_of_contentAt (Prod.ext content.symm rfl)
    · exact ih later

theorem Segment.eq_of_token? {x : Segment} {k : Kind} {value : String}
    (found : x.token? = some (k, value)) : x = ⟨.token k, value.toList⟩ := by
  rcases x with ⟨_ | _ | kind | f, text⟩ <;> cases found
  rw [String.toList_ofList]

theorem standsAlone_of_token {source : String} {t : Token} (inside : t ∈ (ofText source).tokens) :
    StandsAlone t.kind t.value.toList := by
  have listed : (t.kind, t.value) ∈ (segments source.toList).filterMap Segment.token? := by
    rw [← locate_tokens .first]
    rw [ofText_eq] at inside
    exact List.mem_map_of_mem inside
  obtain ⟨x, member, found⟩ := List.mem_filterMap.mp listed
  rw [Segment.eq_of_token? found] at member
  exact standsAlone_of_mem member

def segmentOf (t : Token) : Segment :=
  ⟨.token t.kind, t.value.toList⟩

theorem segments_intercalate {c : Char} (skipped : isSkipped c = true) {tokens : List Token}
    (alone : ∀ t ∈ tokens, StandsAlone t.kind t.value.toList) :
    segments ([c].intercalate (tokens.map (fun t => t.value.toList))) =
      (tokens.map segmentOf).intersperse ⟨.skipped, [c]⟩ := by
  induction tokens with
  | nil => exact segments_nil
  | cons t others ih =>
    have first := alone t List.mem_cons_self
    have later := ih (fun u inside => alone u (List.mem_cons_of_mem t inside))
    cases others with
    | nil =>
      have ends := first [] (fun c head => by cases head)
      rw [List.append_nil, segments_nil] at ends
      rw [List.map_singleton, List.intercalate_singleton, ends]
      rfl
    | cons u others =>
      rw [List.map_cons, List.map_cons] at later
      rw [List.map_cons, List.map_cons, List.intercalate_cons_cons, List.append_assoc,
        List.singleton_append, first _ (fun d head => by cases head; exact skipped),
        segments_of_isSkipped skipped, later]
      rfl

theorem filterMap_intersperse {α β : Type} {f : α → Option β} {sep : α} (none : f sep = .none)
    (xs : List α) : (xs.intersperse sep).filterMap f = xs.filterMap f := by
  induction xs with
  | nil => rfl
  | cons x xs ih =>
    cases xs with
    | nil => rfl
    | cons y ys =>
      rw [List.intersperse_cons_cons, List.filterMap_cons, List.filterMap_cons_none none, ih]
      exact List.filterMap_cons.symm

/-- Tokens from any sources, written one after another with a blank or a line end between each two,
are scanned as these tokens, without errors. -/
theorem ofText_intercalate {separator : String} (blank : separator = " " ∨ separator = "\n")
    {tokens : List Token} (found : ∀ t ∈ tokens, ∃ source, t ∈ (ofText source).tokens) :
    (ofText (separator.intercalate (tokens.map Token.value))).errors = [] ∧
      (ofText (separator.intercalate (tokens.map Token.value))).tokens.map
        (fun t => (t.kind, t.value)) = tokens.map (fun t => (t.kind, t.value)) := by
  have alone : ∀ t ∈ tokens, StandsAlone t.kind t.value.toList := by
    intro t inside
    obtain ⟨source, scanned⟩ := found t inside
    exact standsAlone_of_token scanned
  obtain ⟨c, same, skipped⟩ : ∃ c, separator.toList = [c] ∧ isSkipped c = true := by
    rcases blank with rfl | rfl
    · exact ⟨' ', rfl, rfl⟩
    · exact ⟨'\n', rfl, rfl⟩
  have cut := segments_intercalate skipped alone
  have text : (separator.intercalate (tokens.map Token.value)).toList =
      [c].intercalate (tokens.map (fun t => t.value.toList)) := by
    rw [String.toList_intercalate, same, List.map_map]
    rfl
  rw [ofText_eq, text, cut]
  constructor
  · refine List.map_eq_nil_iff.mp ((locate_faults _ _).trans ?_)
    rw [filterMap_intersperse rfl, List.filterMap_map]
    exact List.filterMap_eq_nil_iff.mpr (fun t _ => rfl)
  · refine (locate_tokens _ _).trans ?_
    rw [filterMap_intersperse rfl, List.filterMap_map, ← List.filterMap_eq_map]
    refine List.filterMap_congr fun t _ => ?_
    simp only [Function.comp_apply, segmentOf, Segment.token?, String.ofList_toList]

theorem ofText_intercalate_points :
    (∀ t ∈ (ofText "1...").tokens ++ (ofText "..5").tokens, ∃ source, t ∈ (ofText source).tokens) ∧
      (ofText ("\n".intercalate
        (((ofText "1...").tokens ++ (ofText "..5").tokens).map Token.value))).tokens.map
          (fun t => (t.kind, t.value)) =
        [(.intLiteral, "1"), (.ellipsis, "..."), (.dot, "."), (.floatLiteral, ".5")] := by
  have found : ∀ t ∈ (ofText "1...").tokens ++ (ofText "..5").tokens,
      ∃ source, t ∈ (ofText source).tokens := fun t inside =>
    (List.mem_append.mp inside).elim (fun here => ⟨_, here⟩) (fun here => ⟨_, here⟩)
  refine ⟨found, (ofText_intercalate (.inr rfl) found).2.trans ?_⟩
  decide +kernel

end LexicalReport.Scan
