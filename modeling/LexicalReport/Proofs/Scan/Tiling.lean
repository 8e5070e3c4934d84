import LexicalReport.Proofs.Scan.Walk

/-! A scan loses nothing. The walk over a text ends, and its steps cut the text into segments of at
least one character; each is a skipped character, a comment, a token with exactly this text, or the
text of a fault. The tokens and faults of the scan are those of the segments, in their order. -/

namespace LexicalReport

/-- The text that a fault concerns: all of what it quotes, or else what its opening quote begins. -/
def Fault.Concerns : Fault → List Char → Prop
  | .illegalCharacter c, text => text = [c]
  | .unterminatedString, text => text.head? = some '"' ∨ text.head? = some '\x60'
  | .unterminatedRune, text => text.head? = some '\''
  | .emptyRune, text => text = ['\'', '\'']
  | .unterminatedComment, text => ['/', '*'] <+: text
  | .malformedNumber quoted, text => text = quoted.toList

namespace Scan

open Token (Kind)

def LineComment (text : List Char) : Prop :=
  ['/', '/'] <+: text ∧ '\n' ∉ text

def BlockComment (text : List Char) : Prop :=
  ∃ body, text = '/' :: '*' :: (body ++ ['*', '/']) ∧ ¬ ['*', '/'] <:+: body ++ ['*']

def Content.Describes : Content → List Char → Prop
  | .skipped, text => ∃ c ∈ [' ', '\t', '\r', '\n', '\uFEFF'], text = [c]
  | .comment, text => LineComment text ∨ BlockComment text
  | .token _, text => text ≠ []
  | .fault f, text => f.Concerns text

namespace Segment

def token? (x : Segment) : Option (Kind × String) :=
  match x.content with
  | .token kind => some (kind, String.ofList x.text)
  | _ => none

def fault? (x : Segment) : Option Fault :=
  match x.content with
  | .fault fault => some fault
  | _ => none

end Segment

theorem not_line_of_mem_takeWhile {cs : List Char} : '\n' ∉ cs.takeWhile (· != '\n') := by
  intro inside
  simpa using List.mem_takeWhile_imp inside

theorem lineComment_of_head {rest : List Char} (slash : rest.head? = some '/') :
    LineComment ('/' :: rest.take (lineLength rest)) := by
  obtain ⟨more, rfl⟩ := List.head?_eq_some_iff.mp slash
  rw [lineLength, take_length_takeWhile]
  refine ⟨?_, ?_⟩
  · rw [List.takeWhile_cons_of_pos (by decide)]
    exact ⟨_, rfl⟩
  · rw [List.mem_cons, not_or]
    exact ⟨by decide, not_line_of_mem_takeWhile⟩

theorem blockLength?_text {cs : List Char} {n : Nat} (closed : blockLength? cs = some n) :
    ∃ body, cs.take n = body ++ ['*', '/'] ∧ ¬ ['*', '/'] <:+: body ++ ['*'] := by
  fun_induction blockLength? cs generalizing n with
  | case1 rest =>
    cases closed
    refine ⟨[], rfl, fun inside => ?_⟩
    exact absurd inside.length_le (by decide)
  | case2 c rest opens ih =>
    obtain ⟨m, found, rfl⟩ := Option.map_eq_some_iff.mp closed
    obtain ⟨body, text, inner⟩ := ih found
    refine ⟨c :: body, by rw [List.take_succ_cons, text, List.cons_append], ?_⟩
    rw [List.cons_append, List.infix_cons_iff]
    rintro (⟨after, first⟩ | inside)
    · rw [List.cons_append, List.cons.injEq] at first
      obtain ⟨rfl, more⟩ := first
      have slash : rest.head? = some '/' := by
        have begins : (rest.take m).head? = some '/' := by
          rw [text]
          cases body with
          | nil => cases more
          | cons d _ =>
            rw [List.cons_append, List.cons_append, List.cons.injEq] at more
            rw [List.cons_append, List.head?_cons, more.1]
        rw [List.head?_take] at begins
        split at begins
        · cases begins
        · exact begins
      obtain ⟨tail, same⟩ := List.head?_eq_some_iff.mp slash
      exact opens tail rfl same
    · exact inner inside
  | case3 => cases closed

theorem blockComment_of_closed {rest : List Char} {n : Nat} (star : rest.head? = some '*')
    (closed : blockLength? (rest.drop 1) = some n) :
    BlockComment ('/' :: rest.take (n + 1)) := by
  obtain ⟨more, rfl⟩ := List.head?_eq_some_iff.mp star
  obtain ⟨body, text, inner⟩ := blockLength?_text closed
  rw [List.drop_one, List.tail_cons] at text
  exact ⟨body, by rw [List.take_succ_cons, text], inner⟩

theorem blockContent_describes {rest : List Char} (star : rest.head? = some '*') :
    (blockContent rest).1.Describes ('/' :: rest.take (blockContent rest).2) := by
  unfold blockContent
  split
  · exact .inr (blockComment_of_closed star ‹_›)
  · obtain ⟨more, rfl⟩ := List.head?_eq_some_iff.mp star
    exact ⟨more, by rw [List.take_length]; rfl⟩

theorem quotedContent_describes {quote : Char} {kind : Kind} {unclosed : Fault}
    (opens : ∀ text, unclosed.Concerns (quote :: text)) (rest : List Char) :
    (quotedContent quote kind unclosed rest).1.Describes
      (quote :: rest.take (quotedContent quote kind unclosed rest).2) := by
  unfold quotedContent
  split
  · exact List.cons_ne_nil _ _
  · exact opens _

theorem quotedLength?_one {quote : Char} {cs : List Char}
    (closed : quotedLength? quote cs = some 1) : cs.head? = some quote := by
  cases closes_of_quotedLength? closed with
  | close => rfl
  | other _ _ _ later => cases later -- a closed text has its quote at least

theorem runeContent_describes (rest : List Char) :
    (runeContent rest).1.Describes ('\'' :: rest.take (runeContent rest).2) := by
  unfold runeContent
  split
  · rename_i found
    have closed : quotedLength? '\'' rest = some 1 := by
      rw [quotedContent] at found
      split at found <;> cases found
      assumption
    obtain ⟨more, rfl⟩ := List.head?_eq_some_iff.mp (quotedLength?_one closed)
    rfl
  · refine quotedContent_describes ?_ rest
    exact fun _ => rfl

theorem rawContent_describes (rest : List Char) :
    (rawContent rest).1.Describes ('\x60' :: rest.take (rawContent rest).2) := by
  unfold rawContent
  split
  · exact List.cons_ne_nil _ _
  · exact .inr rfl

theorem numberContent_describes {c : Char} {rest : List Char}
    (number : beginsNumber (c :: rest) = true) :
    (numberContent c rest).1.Describes (c :: rest.take (numberContent c rest).2) := by
  obtain ⟨n, length⟩ := Nat.exists_eq_add_one.mpr (numeral_length_pos number)
  simp only [numberContent, length, Nat.add_sub_cancel, List.take_succ_cons]
  split
  · exact List.cons_ne_nil _ _
  · exact (String.toList_ofList).symm

theorem operatorContent_describes (c : Char) (rest : List Char) :
    (operatorContent c rest).1.Describes (c :: rest.take (operatorContent c rest).2) := by
  unfold operatorContent
  split
  · exact List.cons_ne_nil _ _
  · rfl

theorem contentAt_describes (c : Char) (rest : List Char) :
    (contentAt c rest).1.Describes (c :: rest.take (contentAt c rest).2) := by
  unfold contentAt
  split_ifs with skipped line block word number string raw rune
  · exact ⟨c, isSkipped_iff.mp skipped, rfl⟩
  · obtain ⟨rfl, slash⟩ := line
    exact .inl (lineComment_of_head slash)
  · obtain ⟨rfl, star⟩ := block
    exact blockContent_describes star
  · exact List.cons_ne_nil _ _
  · exact numberContent_describes number
  · subst string
    refine quotedContent_describes ?_ rest
    exact fun _ => .inl rfl
  · subst raw
    exact rawContent_describes rest
  · subst rune
    exact runeContent_describes rest
  · exact operatorContent_describes c rest

theorem segments_describes (cs : List Char) :
    ∀ x ∈ segments cs, x.text ≠ [] ∧ x.content.Describes x.text := by
  fun_induction segments cs with
  | case1 => exact fun _ none => absurd none List.not_mem_nil
  | case2 c rest found ih =>
    intro x inside
    rcases List.mem_cons.mp inside with rfl | later
    · exact ⟨List.cons_ne_nil _ _, contentAt_describes c rest⟩
    · exact ih x later

theorem segments_text (cs : List Char) : (segments cs).flatMap Segment.text = cs := by
  fun_induction segments cs with
  | case1 => rfl
  | case2 c rest found ih =>
    rw [List.flatMap_cons, ih, List.cons_append, List.take_append_drop]

theorem map_filterMap_locate {α β : Type} {f : Located → Option α} {g : α → β}
    {h : Segment → Option β} (same : ∀ p x, (f ⟨p, x⟩).map g = h x) (p : Place)
    (xs : List Segment) : ((locate p xs).filterMap f).map g = xs.filterMap h := by
  rw [List.map_filterMap]
  induction xs generalizing p with
  | nil => rfl
  | cons x xs ih =>
    rw [locate, List.filterMap_cons, List.filterMap_cons, same, ih (p.after x.text)]

theorem locate_tokens (p : Place) (xs : List Segment) :
    ((locate p xs).filterMap Located.token?).map (fun t => (t.kind, t.value)) =
      xs.filterMap Segment.token? :=
  map_filterMap_locate (fun _ x => by rcases x with ⟨_ | _ | kind | fault, text⟩ <;> rfl) p xs

theorem locate_faults (p : Place) (xs : List Segment) :
    ((locate p xs).filterMap Located.diagnostic?).map Diagnostic.fault =
      xs.filterMap Segment.fault? :=
  map_filterMap_locate (fun _ x => by rcases x with ⟨_ | _ | kind | fault, text⟩ <;> rfl) p xs

theorem after_append (p : Place) (text more : List Char) :
    p.after (text ++ more) = (p.after text).after more :=
  List.foldl_append

theorem locate_append (p : Place) (xs ys : List Segment) : locate p (xs ++ ys) =
    locate p xs ++ locate (p.after (xs.flatMap Segment.text)) ys := by
  induction xs generalizing p with
  | nil => rfl
  | cons x xs ih =>
    rw [List.cons_append, locate, ih, List.flatMap_cons, after_append, locate, List.cons_append]

/-- The walk over a text ends; its steps take segments that tile the text; and the scan has a token
for each token segment and an error for each fault segment, in their order. -/
theorem ofText_lossless (source : String) :
    ∃ last, (Cursor.start source).walk? = some last ∧ ofText source = ofCursor last ∧
      Cursor.Walks (Cursor.start source) (segments source.toList) last ∧
      (segments source.toList).flatMap Segment.text = source.toList ∧
      (∀ x ∈ segments source.toList, x.text ≠ [] ∧ x.content.Describes x.text) ∧
      (ofText source).tokens.map (fun t => (t.kind, t.value)) =
        (segments source.toList).filterMap Segment.token? ∧
      (ofText source).errors.map Diagnostic.fault =
        (segments source.toList).filterMap Segment.fault? := by
  obtain ⟨last, walked, walks⟩ := Cursor.walks_segments (Cursor.inText_start source)
  rw [Cursor.ahead_start] at walks
  refine ⟨last, walked, ?_, walks, segments_text _, segments_describes _, ?_, ?_⟩
  · rw [ofText, walked]
  · rw [ofText_eq]
    exact locate_tokens _ _
  · rw [ofText_eq]
    exact locate_faults _ _

end Scan

end LexicalReport
