import LexicalReport.Proofs.Scan.Lines
import LexicalReport.Proofs.Text.Languages

/-! What delimiters open. A string or rune takes the one text in quotes that begins the text ahead,
a raw string ends at the next backtick, and a block comment at the first end mark after its opening.
What is not closed in this way is a fault up to the end of the line, or, if it may span lines, of
the text; nothing is found after that. -/

namespace LexicalReport.Scan

open Token (Kind)
open Text (oneOf mem_oneOf_mul cons_mem_oneOf_mul singleton_mem_oneOf)
open scoped Computability

/-- Characters of a line other than the quote and the backslash, and backslashes with the character
that they escape. -/
def quotedBody (quote : Char) : Language Char :=
  (oneOf (fun c => c ≠ quote ∧ c ≠ '\\' ∧ c ≠ '\n') +
    oneOf (fun c => c = '\\') * oneOf (fun c => c ≠ '\n'))∗

def quoted (quote : Char) : Language Char :=
  oneOf (fun c => c = quote) * quotedBody quote * oneOf (fun c => c = quote)

def EndsBlockAt (cs : List Char) (i : Nat) : Prop :=
  ['*', '/'] <+: cs.drop i

namespace Cursor

def Steps (s : Cursor) (content : Content) (text : List Char) : Prop :=
  ∃ t, s.Takes ⟨content, text⟩ t

/-- How a text in quotes is taken. No two texts in quotes begin the text ahead. -/
structure StepsQuoted (s : Cursor) (quote : Char) (content : List Char → Content)
    (unclosed : Fault) : Prop where
  closed : ∀ w ∈ quoted quote, w <+: s.ahead → s.Steps (content w) w
  unclosed : (∀ w ∈ quoted quote, ¬ w <+: s.ahead) →
    s.Steps (.fault unclosed) (s.ahead.takeWhile (· != '\n'))
  unique : ∀ v ∈ quoted quote, ∀ w ∈ quoted quote, v <+: s.ahead → w <+: s.ahead → v = w

structure StepsRaw (s : Cursor) (rest : List Char) : Prop where
  closed : ∀ body more, rest = body ++ '\x60' :: more → '\x60' ∉ body →
    s.Steps (.token .stringLiteral) ('\x60' :: (body ++ ['\x60']))
  unclosed : '\x60' ∉ rest → s.Steps (.fault .unterminatedString) s.ahead

structure StepsBlock (s : Cursor) : Prop where
  closed : ∀ i, 2 ≤ i → EndsBlockAt s.ahead i →
    (∀ j, 2 ≤ j → j < i → ¬ EndsBlockAt s.ahead j) → s.Steps .comment (s.ahead.take (i + 2))
  unclosed : (∀ i, 2 ≤ i → ¬ EndsBlockAt s.ahead i) →
    s.Steps (.fault .unterminatedComment) s.ahead

structure StepsDelimited (s : Cursor) : Prop where
  string : s.ahead.head? = some '"' →
    s.StepsQuoted '"' (fun _ => .token .stringLiteral) .unterminatedString
  rune : s.ahead.head? = some '\'' → s.StepsQuoted '\''
    (fun w => if w = ['\'', '\''] then .fault .emptyRune else .token .runeLiteral)
    .unterminatedRune
  raw : ∀ rest, s.ahead = '\x60' :: rest → s.StepsRaw rest
  block : ['/', '*'] <+: s.ahead → s.StepsBlock
  line : ['/', '/'] <+: s.ahead → s.Steps .comment (s.ahead.takeWhile (· != '\n'))

end Cursor

/-- A segment that runs on to the end of a source: it is the last, the only one of this kind, and
the last error. -/
structure EndsScan (source : String) (before : List Segment) (x : Segment)
    (after : List Segment) : Prop where
  last : after = []
  once : ∀ y ∈ before, y.runsOn = false
  tokens : (ofText source).tokens = (ofSegments (locate .first before)).tokens
  errors : ∃ d, x.fault? = some d.fault ∧
    (ofText source).errors = (ofSegments (locate .first before)).errors ++ [d]

/-! Texts in quotes. -/

theorem mem_quoted {quote : Char} {w : List Char} :
    w ∈ quoted quote ↔ ∃ body ∈ quotedBody quote, w = quote :: (body ++ [quote]) := by
  rw [quoted, mul_assoc, mem_oneOf_mul]
  constructor
  · rintro ⟨_, rest, rfl, rfl, more⟩
    obtain ⟨body, inside, _, ⟨_, rfl, rfl⟩, rfl⟩ := Language.mem_mul.mp more
    exact ⟨body, inside, rfl⟩
  · rintro ⟨body, inside, rfl⟩
    exact ⟨quote, _, rfl, rfl, Language.append_mem_mul inside (singleton_mem_oneOf.mpr rfl)⟩

theorem quotedLength?_of_body {quote : Char} (line : quote ≠ '\n') (slash : quote ≠ '\\')
    {body : List Char} (inside : body ∈ quotedBody quote) (more : List Char) :
    quotedLength? quote (body ++ quote :: more) = some (body.length + 1) := by
  obtain ⟨pieces, rfl, all⟩ := Language.mem_kstar.mp inside
  clear inside
  induction pieces with
  | nil => exact quotedLength?_close line slash more
  | cons piece pieces ih =>
    obtain ⟨first, later⟩ := List.forall_mem_cons.mp all
    have rest := ih later
    rw [List.flatten_cons, List.append_assoc]
    obtain ⟨c, rfl, other, noSlash, noLine⟩ | escape := (Language.mem_add _ _ _).mp first
    · rw [List.singleton_append, quotedLength?_other noLine noSlash other, rest]
      rfl
    · obtain ⟨_, _, rfl, rfl, d, rfl, noLine⟩ := mem_oneOf_mul.mp escape
      rw [List.cons_append, List.singleton_append, quotedLength?_escape, if_neg noLine, rest]
      rfl

theorem body_of_quotedLength? {quote : Char} {cs : List Char} {n : Nat}
    (closed : quotedLength? quote cs = some n) :
    ∃ body ∈ quotedBody quote, cs.take n = body ++ [quote] := by
  replace closed := closes_of_quotedLength? closed
  induction closed with
  | close => exact ⟨[], Language.nil_mem_kstar _, rfl⟩
  | @escape d _ _ line _ ih =>
    obtain ⟨body, inside, text⟩ := ih
    refine ⟨['\\', d] ++ body, Text.append_mem_kstar (.inr ?_) inside, ?_⟩
    · exact cons_mem_oneOf_mul.mpr ⟨rfl, singleton_mem_oneOf.mpr line⟩
    · rw [List.take_succ_cons, List.take_succ_cons, text]
      rfl
  | @other c _ _ line slash apart _ ih =>
    obtain ⟨body, inside, text⟩ := ih
    refine ⟨[c] ++ body, Text.append_mem_kstar (.inl ?_) inside, ?_⟩
    · exact singleton_mem_oneOf.mpr ⟨apart, slash, line⟩
    · rw [List.take_succ_cons, text]
      rfl

theorem quoted_prefix_iff {quote : Char} (line : quote ≠ '\n') (slash : quote ≠ '\\')
    {rest w : List Char} : (w ∈ quoted quote ∧ w <+: quote :: rest) ↔
      ∃ n, quotedLength? quote rest = some n ∧ w = quote :: rest.take n := by
  rw [mem_quoted]
  constructor
  · rintro ⟨⟨body, inside, rfl⟩, begins⟩
    obtain ⟨more, rfl⟩ := (List.prefix_cons_inj quote).mp begins
    have found := quotedLength?_of_body line slash inside more
    rw [List.append_assoc, List.singleton_append]
    refine ⟨_, found, ?_⟩
    rw [List.take_length_add_append, List.take_succ_cons, List.take_zero]
  · rintro ⟨n, found, rfl⟩
    obtain ⟨body, inside, text⟩ := body_of_quotedLength? found
    exact ⟨⟨body, inside, by rw [text]⟩,
      (List.prefix_cons_inj quote).mpr (List.take_prefix n rest)⟩

namespace Cursor

variable {s : Cursor} {rest : List Char}

theorem steps_of_contentAt (inText : s.InText) {c : Char} (next : s.ahead = c :: rest)
    {content : Content} {n : Nat} (found : contentAt c rest = (content, n)) :
    s.Steps content (c :: rest.take n) := by
  have takes := takes_contentAt inText next
  rw [found] at takes
  exact ⟨_, takes⟩

theorem stepsQuoted (inText : s.InText) {quote : Char} (line : quote ≠ '\n')
    (slash : quote ≠ '\\') (next : s.ahead = quote :: rest) {content : List Char → Content}
    {unclosed : Fault}
    (closes : ∀ n, quotedLength? quote rest = some n →
      contentAt quote rest = (content (quote :: rest.take n), n))
    (opens : quotedLength? quote rest = none →
      contentAt quote rest = (.fault unclosed, lineLength rest)) :
    s.StepsQuoted quote content unclosed := by
  refine ⟨fun w inside begins => ?_, fun none => ?_, fun v first w second left right => ?_⟩
  · rw [next] at begins
    obtain ⟨n, found, rfl⟩ := (quoted_prefix_iff line slash).mp ⟨inside, begins⟩
    exact steps_of_contentAt inText next (closes n found)
  · rw [next] at none
    have absent : quotedLength? quote rest = .none := by
      rw [Option.eq_none_iff_forall_ne_some]
      intro n found
      obtain ⟨inside, begins⟩ := (quoted_prefix_iff line slash).mpr ⟨n, found, rfl⟩
      exact none _ inside begins
    have steps := steps_of_contentAt inText next (opens absent)
    rw [lineLength, take_length_takeWhile] at steps
    rw [next, List.takeWhile_cons_of_pos (by simpa using line)]
    exact steps
  · rw [next] at left right
    obtain ⟨m, found, rfl⟩ := (quoted_prefix_iff line slash).mp ⟨first, left⟩
    obtain ⟨n, same, rfl⟩ := (quoted_prefix_iff line slash).mp ⟨second, right⟩
    cases found.symm.trans same
    rfl

theorem stepsQuoted_string (inText : s.InText) (next : s.ahead = '"' :: rest) :
    s.StepsQuoted '"' (fun _ => .token .stringLiteral) .unterminatedString := by
  refine stepsQuoted inText (by decide) (by decide) next (fun n found => ?_) (fun none => ?_)
  · rw [contentAt_string, quotedContent, found]
  · rw [contentAt_string, quotedContent, none]

theorem stepsQuoted_rune (inText : s.InText) (next : s.ahead = '\'' :: rest) :
    s.StepsQuoted '\''
      (fun w => if w = ['\'', '\''] then .fault .emptyRune else .token .runeLiteral)
      .unterminatedRune := by
  refine stepsQuoted inText (by decide) (by decide) next (fun n found => ?_) (fun none => ?_)
  · have bounds := quotedLength?_bounds found
    have empty : '\'' :: rest.take n = ['\'', '\''] ↔ n = 1 := by
      constructor
      · intro same
        have length := congrArg List.length same
        rw [List.length_cons, List.length_take_of_le bounds.2] at length
        exact Nat.succ_injective length
      · rintro rfl
        obtain ⟨more, rfl⟩ := List.head?_eq_some_iff.mp (quotedLength?_one found)
        rfl
    rw [contentAt_rune, runeContent_of_closed found]
    simp only [empty]
    split_ifs <;> rfl
  · rw [contentAt_rune, runeContent, quotedContent, none]

end Cursor

/-! Raw strings, and comments. -/

theorem rawLength?_of_body {quote : Char} {body : List Char} (inside : quote ∉ body)
    (more : List Char) : rawLength? quote (body ++ quote :: more) = some (body.length + 1) := by
  induction body with
  | nil => exact (rawLength?_cons quote quote more).trans (if_pos rfl)
  | cons c body ih =>
    rw [List.mem_cons, not_or] at inside
    rw [List.cons_append, rawLength?_cons, if_neg (Ne.symm inside.1), ih inside.2]
    rfl

theorem rawLength?_of_not_mem {quote : Char} {cs : List Char} (absent : quote ∉ cs) :
    rawLength? quote cs = none := by
  induction cs with
  | nil => rfl
  | cons c cs ih =>
    rw [List.mem_cons, not_or] at absent
    rw [rawLength?_cons, if_neg (Ne.symm absent.1), ih absent.2]
    rfl

theorem blockLength?_of_first {cs : List Char} {i : Nat} (ends : EndsBlockAt cs i)
    (first : ∀ j < i, ¬ EndsBlockAt cs j) : blockLength? cs = some (i + 2) := by
  induction i generalizing cs with
  | zero =>
    obtain ⟨more, rfl⟩ := ends
    rfl
  | succ i ih =>
    cases cs with
    | nil => exact absurd ends.length_le (by simp)
    | cons c cs =>
      have opens : ¬ (c = '*' ∧ cs.head? = some '/') := by
        rintro ⟨rfl, slash⟩
        obtain ⟨more, rfl⟩ := List.head?_eq_some_iff.mp slash
        exact first 0 (Nat.succ_pos i) ⟨more, rfl⟩
      rw [blockLength?_cons opens,
        ih ends (fun j less => first (j + 1) (Nat.succ_lt_succ less))]
      rfl

theorem blockLength?_of_none {cs : List Char} (none : ∀ i, ¬ EndsBlockAt cs i) :
    blockLength? cs = .none := by
  rw [Option.eq_none_iff_forall_ne_some]
  intro n closed
  obtain ⟨body, text, -⟩ := blockLength?_text closed
  have split : cs = body ++ (['*', '/'] ++ cs.drop n) := by
    rw [← List.append_assoc, ← text, List.take_append_drop]
  refine none body.length ⟨cs.drop n, ?_⟩
  conv_rhs => rw [split, List.drop_left]

namespace Cursor

variable {s : Cursor} {rest : List Char}

theorem stepsRaw (inText : s.InText) (next : s.ahead = '\x60' :: rest) : s.StepsRaw rest := by
  refine ⟨?_, fun absent => ?_⟩
  · rintro body more rfl inside
    have found : contentAt '\x60' (body ++ '\x60' :: more) =
        (.token .stringLiteral, body.length + 1) := by
      rw [contentAt_raw, rawContent, rawLength?_of_body inside more]
    have steps := steps_of_contentAt inText next found
    rwa [List.take_length_add_append, List.take_succ_cons, List.take_zero] at steps
  · have found : contentAt '\x60' rest = (.fault .unterminatedString, rest.length) := by
      rw [contentAt_raw, rawContent, rawLength?_of_not_mem absent]
    have steps := steps_of_contentAt inText next found
    rwa [List.take_length, ← next] at steps

theorem stepsBlock (inText : s.InText) {more : List Char} (next : s.ahead = '/' :: '*' :: more) :
    s.StepsBlock := by
  have found : contentAt '/' ('*' :: more) = blockContent ('*' :: more) := contentAt_block rfl
  refine ⟨fun i long ends first => ?_, fun none => ?_⟩
  · obtain ⟨j, rfl⟩ := Nat.exists_eq_add_of_le' long
    rw [next] at ends first ⊢
    have closed := @blockLength?_of_first more _ ends
      (fun k less => first (k + 2) (by omega) (by omega))
    rw [blockContent, List.drop_one, List.tail_cons, closed] at found
    exact steps_of_contentAt inText next found
  · rw [next] at none
    have absent := blockLength?_of_none (fun i => none (i + 2) (by omega))
    rw [blockContent, List.drop_one, List.tail_cons, absent] at found
    have steps := steps_of_contentAt inText next found
    rwa [List.take_length, ← next] at steps

theorem stepsLine (inText : s.InText) {more : List Char} (next : s.ahead = '/' :: '/' :: more) :
    s.Steps .comment (s.ahead.takeWhile (· != '\n')) := by
  have steps := steps_of_contentAt inText next (contentAt_line rfl)
  rw [lineLength, take_length_takeWhile] at steps
  rw [next, List.takeWhile_cons_of_pos (by decide)]
  exact steps

theorem stepsDelimited (inText : s.InText) : s.StepsDelimited := by
  refine ⟨fun head => ?_, fun head => ?_, fun rest next => stepsRaw inText next, ?_, ?_⟩
  · obtain ⟨rest, next⟩ := List.head?_eq_some_iff.mp head
    exact stepsQuoted_string inText next
  · obtain ⟨rest, next⟩ := List.head?_eq_some_iff.mp head
    exact stepsQuoted_rune inText next
  · rintro ⟨more, next⟩
    exact stepsBlock inText next.symm
  · rintro ⟨more, next⟩
    exact stepsLine inText next.symm

end Cursor

/-! Faults that run on. -/

theorem contentAt_runsOn {c : Char} {rest : List Char} {f : Fault}
    (fault : (contentAt c rest).1 = .fault f) (runs : f.runsOn [c] = true) :
    (contentAt c rest).2 = rest.length := by
  have form := contentAt_describes c rest
  rw [fault] at form
  cases f with
  | unterminatedComment =>
    have opens : ['/', '*'] <+: c :: rest := form.trans
      ((List.prefix_cons_inj c).mpr (List.take_prefix _ rest))
    obtain ⟨rfl, more, rfl⟩ := List.cons_prefix_cons.mp opens
    rw [contentAt_block rfl, blockContent] at fault ⊢
    split at fault
    · cases fault
    · rfl
  | unterminatedString =>
    obtain rfl : c = '\x60' := by simpa [Fault.runsOn] using runs
    rw [contentAt_raw, rawContent] at fault ⊢
    split at fault
    · cases fault
    · rfl
  | _ => cases runs

theorem Segment.runsOn_iff {x : Segment} :
    x.runsOn = true ↔ ∃ f, x.content = .fault f ∧ f.runsOn x.text = true := by
  rcases x with ⟨_ | _ | kind | f, text⟩ <;> simp [Segment.runsOn, Segment.fault?]

theorem segments_runsOn {cs : List Char} {before after : List Segment} {x : Segment}
    (cut : segments cs = before ++ x :: after) (runs : x.runsOn = true) : after = [] := by
  induction before generalizing cs with
  | nil =>
    cases cs with
    | nil =>
      rw [segments_nil] at cut
      cases cut
    | cons c rest =>
      rw [segments, List.nil_append, List.cons.injEq] at cut
      obtain ⟨rfl, rfl⟩ := cut
      obtain ⟨f, fault, on⟩ := Segment.runsOn_iff.mp runs
      rw [contentAt_runsOn fault ((runsOn_cons f c _).symm.trans on), List.drop_length,
        segments_nil]
  | cons y before ih =>
    cases cs with
    | nil =>
      rw [segments_nil] at cut
      cases cut
    | cons c rest =>
      rw [segments, List.cons_append, List.cons.injEq] at cut
      exact ih cut.2

theorem endsScan {source : String} {before after : List Segment} {x : Segment}
    (cut : segments source.toList = before ++ x :: after) (runs : x.runsOn = true) :
    EndsScan source before x after := by
  obtain rfl := segments_runsOn cut runs
  obtain ⟨f, fault, -⟩ := Segment.runsOn_iff.mp runs
  obtain ⟨content, text⟩ := x
  cases fault
  refine ⟨rfl, fun y inside => ?_, ?_, ?_⟩
  · obtain ⟨first, second, rfl⟩ := List.append_of_mem inside
    by_contra on
    rw [List.append_assoc, List.cons_append] at cut
    have none := segments_runsOn cut (by simpa using on)
    cases second <;> cases none
  · rw [ofText_eq, cut, locate_append]
    simp only [ofSegments, List.filterMap_append, locate]
    exact List.append_nil _
  · refine ⟨⟨f, (Place.first.after (before.flatMap Segment.text)).line,
      (Place.first.after (before.flatMap Segment.text)).column⟩, rfl, ?_⟩
    rw [ofText_eq, cut, locate_append]
    simp only [ofSegments, List.filterMap_append, locate]
    rfl

/-- What a delimiter opens is taken as its form says, wherever a walk over a source comes by; and a
fault that runs on ends the scan. -/
theorem steps_delimited (source : String) :
    (∀ s, Cursor.Reached source s → s.StepsDelimited) ∧
      ∀ before x after, segments source.toList = before ++ x :: after → x.runsOn = true →
        EndsScan source before x after :=
  ⟨fun _ reached => Cursor.stepsDelimited reached.inText.1, fun _ _ _ => endsScan⟩

theorem steps_delimited_open_comment :
    (Cursor.start "\"a\\\"b\"/*/").Steps (.token .stringLiteral) ['"', 'a', '\\', '"', 'b', '"'] ∧
      EndsScan "\"a\\\"b\"/*/" [⟨.token .stringLiteral, ['"', 'a', '\\', '"', 'b', '"']⟩]
        ⟨.fault .unterminatedComment, ['/', '*', '/']⟩ [] := by
  obtain ⟨steps, ends⟩ := steps_delimited "\"a\\\"b\"/*/"
  have quoted := (@quoted_prefix_iff '"' (by decide) (by decide) _ _).mpr
    ⟨5, (by decide : quotedLength? '"' ['a', '\\', '"', 'b', '"', '/', '*', '/'] = some 5), rfl⟩
  refine ⟨((steps _ .start).string (by decide)).closed _ quoted.1 ?_, ends _ _ _ ?_ rfl⟩
  · exact quoted.2
  · decide +kernel

end LexicalReport.Scan
