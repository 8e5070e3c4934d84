import LexicalReport.Proofs.Scan.Step

/-! The walk of a cursor over the whole of a text. Its steps take the segments of the text one after
the other, so that the scan of a text is what its located segments say. The walk comes to the end of
every text. -/

namespace LexicalReport.Scan

open Token (Kind)

namespace Cursor

variable {s t : Cursor} {c : Char} {rest : List Char}

theorem taking_place_inputs (s : Cursor) (x : Content × Nat) :
    (s.taking x).chars = s.chars ∧ (s.taking x).position = (advanceBy (x.2 + 1) s).position ∧
      (s.taking x).line = (advanceBy (x.2 + 1) s).line ∧
      (s.taking x).lineStart = (advanceBy (x.2 + 1) s).lineStart := by
  rcases x with ⟨_ | _ | kind | fault, n⟩ <;> simp [taking]

theorem ahead_taking (s : Cursor) (x : Content × Nat) :
    (s.taking x).ahead = s.ahead.drop (x.2 + 1) := by
  obtain ⟨chars, position, -, -⟩ := taking_place_inputs s x
  rw [← ahead_advanceBy, ahead, ahead, chars, position, advanceBy_chars]

theorem inText_taking (inText : s.InText) (x : Content × Nat) : (s.taking x).InText := by
  obtain ⟨chars, position, line, lineStart⟩ := taking_place_inputs s x
  have moved := inText_advanceBy (x.2 + 1) inText
  refine ⟨?_, ?_⟩
  · rw [position, lineStart]
    exact moved.lineStart_le
  · rw [position, chars, ← advanceBy_chars (x.2 + 1) s]
    exact moved.position_le

theorem place_taking (inText : s.InText) {x : Content × Nat} (inside : x.2 < s.ahead.length) :
    (s.taking x).place = s.place.after (s.ahead.take (x.2 + 1)) := by
  obtain ⟨chars, position, line, lineStart⟩ := taking_place_inputs s x
  rw [← place_advanceBy inText inside, place, place, position, line, lineStart]

theorem tokens_taking (s : Cursor) (x : Content × Nat) : (s.taking x).tokens.toList =
    s.tokens.toList ++ (Located.token? ⟨s.place, ⟨x.1, s.ahead.take (x.2 + 1)⟩⟩).toList := by
  rcases x with ⟨_ | _ | kind | fault, n⟩ <;> simp [taking, Located.token?, place]

theorem errors_taking (s : Cursor) (x : Content × Nat) : (s.taking x).errors.toList =
    s.errors.toList ++ (Located.diagnostic? ⟨s.place, ⟨x.1, s.ahead.take (x.2 + 1)⟩⟩).toList := by
  rcases x with ⟨_ | _ | kind | fault, n⟩ <;> simp [taking, Located.diagnostic?, place]

/-- One step of a walk takes a segment: it goes over the text of the segment, and notes one token or
one fault if the segment is one. -/
structure Takes (s : Cursor) (x : Segment) (t : Cursor) : Prop where
  step : ∃ c, s.peek? = some c ∧ s.step? c = some t
  chars : t.chars = s.chars
  onward : s.position < t.position
  text : s.chars.toList.extract s.position t.position = x.text
  place : t.place = s.place.after x.text
  tokens : t.tokens.toList = s.tokens.toList ++ (Located.token? ⟨s.place, x⟩).toList
  errors : t.errors.toList = s.errors.toList ++ (Located.diagnostic? ⟨s.place, x⟩).toList

/-- The steps of a walk up to the end of the text, with the segments that they take. -/
inductive Walks : Cursor → List Segment → Cursor → Prop
  | done {s : Cursor} (ends : s.peek? = none) : Walks s [] s
  | step {s t last : Cursor} {x : Segment} {more : List Segment} (takes : s.Takes x t)
      (walks : Walks t more last) : Walks s (x :: more) last

theorem takes_contentAt (inText : s.InText) (next : s.ahead = c :: rest) :
    s.Takes ⟨(contentAt c rest).1, c :: rest.take (contentAt c rest).2⟩
      (s.taking (contentAt c rest)) := by
  have inside : (contentAt c rest).2 < s.ahead.length := by
    rw [next, List.length_cons]
    exact Nat.lt_succ_of_le (contentAt_le c rest)
  have moved := position_advanceBy (s := s) (n := (contentAt c rest).2 + 1) inside
  obtain ⟨chars, position, -, -⟩ := taking_place_inputs s (contentAt c rest)
  have text : s.ahead.take ((contentAt c rest).2 + 1) = c :: rest.take (contentAt c rest).2 := by
    rw [next, List.take_succ_cons]
  refine ⟨⟨c, peek?_of_ahead next, step?_eq inText next⟩, chars, ?_, ?_, ?_, ?_, ?_⟩
  · rw [position, moved]
    omega
  · rw [position, moved, List.extract_eq_take_drop, Nat.add_sub_cancel_left, ← ahead, text]
  · rw [place_taking inText inside, text]
  · rw [tokens_taking, text]
  · rw [errors_taking, text]

theorem walks_segments (inText : s.InText) :
    ∃ last, s.walk? = some last ∧ Walks s (segments s.ahead) last := by
  fun_induction walk? s with
  | case1 s ends =>
    refine ⟨s, rfl, ?_⟩
    rw [ahead_of_peek?_none ends, segments]
    exact .done ends
  | case2 s c found stuck =>
    obtain ⟨rest, next⟩ := ahead_of_peek? found
    rw [step?_eq inText next] at stuck
    cases stuck
  | case3 s c found t stepped onward ih =>
    obtain ⟨rest, next⟩ := ahead_of_peek? found
    rw [step?_eq inText next] at stepped
    cases stepped
    obtain ⟨last, walked, walks⟩ := ih (inText_taking inText _)
    refine ⟨last, walked, ?_⟩
    rw [ahead_taking, next, List.drop_succ_cons] at walks
    rw [next, segments]
    exact .step (takes_contentAt inText next) walks
  | case4 s c found t stepped still =>
    obtain ⟨rest, next⟩ := ahead_of_peek? found
    rw [step?_eq inText next] at stepped
    cases stepped
    refine absurd ?_ still
    rw [left_eq_length, left_eq_length, ahead_taking, next, List.drop_succ_cons,
      List.length_drop, List.length_cons]
    omega

theorem ofCursor_walks {last : Cursor} {xs : List Segment} (walks : Walks s xs last) :
    ofCursor last = ⟨s.tokens.toList ++ (locate s.place xs).filterMap Located.token?,
      s.errors.toList ++ (locate s.place xs).filterMap Located.diagnostic?⟩ := by
  induction walks with
  | done => simp [ofCursor, locate]
  | step takes walks ih =>
    rw [ih, takes.tokens, takes.errors, takes.place]
    simp only [locate, List.filterMap_cons, List.append_assoc]
    cases Located.token? _ <;> cases Located.diagnostic? _ <;> rfl

theorem inText_start (source : String) : (start source).InText :=
  ⟨Nat.le_refl 0, Nat.zero_le _⟩

theorem ahead_start (source : String) : (start source).ahead = source.toList := by
  rw [ahead, start]
  rfl

end Cursor

theorem ofText_eq (source : String) :
    ofText source = ofSegments (locate .first (segments source.toList)) := by
  obtain ⟨last, walked, walks⟩ := Cursor.walks_segments (Cursor.inText_start source)
  rw [Cursor.ahead_start] at walks
  rw [ofText, walked]
  exact Cursor.ofCursor_walks walks

end LexicalReport.Scan
