import LexicalReport.Proofs.Scan.Blanking
import LexicalReport.Proofs.Scan.Lines

/-! Line ends may be written with a carriage return before the line feed. The return stands
between tokens, or it belongs to a comment or fault that the line end cuts short, so a scan finds
the same tokens and errors at the same places. Only a raw string that spans lines has returns in its
value. -/

namespace LexicalReport

namespace Scan

def returned (cs : List Char) : List Char :=
  cs.flatMap (fun c => if c = '\n' then ['\r', '\n'] else [c])

def withReturns (source : String) : String :=
  String.ofList (returned source.toList)

end Scan

def Token.withReturns (t : Token) : Token :=
  { t with value := Scan.withReturns t.value }

namespace Scan

open Token (Kind)

theorem returned_line (cs : List Char) : returned ('\n' :: cs) = '\r' :: '\n' :: returned cs :=
  rfl

theorem returned_cons {c : Char} (other : c ≠ '\n') (cs : List Char) :
    returned (c :: cs) = c :: returned cs := by
  simp [returned, other]

theorem returned_append (cs ds : List Char) : returned (cs ++ ds) = returned cs ++ returned ds :=
  List.flatMap_append

theorem returned_flat {cs : List Char} (flat : '\n' ∉ cs) : returned cs = cs := by
  induction cs with
  | nil => rfl
  | cons c cs ih =>
    rw [List.mem_cons, not_or] at flat
    rw [returned_cons (Ne.symm flat.1), ih flat.2]

theorem atBreak_returned {y : List Char} (stop : AtBreak y) : AtBreak (returned y) := by
  cases y with
  | nil => exact stop
  | cons c y =>
    by_cases line : c = '\n'
    · rw [line, returned_line]
      exact fun d head => by cases head; rfl
    · rw [returned_cons line]
      exact stop

theorem head?_of_returned {d : Char} (solid : isSkipped d = false) {cs : List Char}
    (head : (returned cs).head? = some d) : ∃ more, cs = d :: more := by
  cases cs with
  | nil => cases head
  | cons c cs =>
    by_cases line : c = '\n'
    · rw [line, returned_line] at head
      cases head
      cases solid
    · rw [returned_cons line] at head
      cases head
      exact ⟨cs, rfl⟩

theorem exists_line (cs : List Char) :
    ∃ flat y, cs = flat ++ y ∧ '\n' ∉ flat ∧ (y = [] ∨ ∃ more, y = '\n' :: more) := by
  induction cs with
  | nil => exact ⟨[], [], rfl, List.not_mem_nil, .inl rfl⟩
  | cons c cs ih =>
    by_cases line : c = '\n'
    · exact ⟨[], c :: cs, rfl, List.not_mem_nil, .inr ⟨cs, by rw [line]⟩⟩
    · obtain ⟨flat, y, same, pure, ends⟩ := ih
      refine ⟨c :: flat, y, by rw [same, List.cons_append], ?_, ends⟩
      rw [List.mem_cons, not_or]
      exact ⟨Ne.symm line, pure⟩

/-- How the segment that begins a text is found again in the text with returns. It has the same
content and reaches as far as before; but a comment or fault that a line end cuts short takes the
return before it as well. -/
inductive Recut (rest : List Char) : Content × Nat → Content × Nat → Prop
  | same (content : Content) (n : Nat) :
    Recut rest (content, n) (content, (returned (rest.take n)).length)
  | longer {content : Content} {n : Nat} (more : List Char) (cut : rest.drop n = '\n' :: more)
    (gone : content.isKept = false) :
    Recut rest (content, n) (content, (returned (rest.take n)).length + 1)

section Recut

variable {rest flat y : List Char}

theorem Recut.of_line {f : List Char → Content × Nat} (pure : '\n' ∉ flat)
    (bound : (f flat).2 ≤ flat.length) (stays : f (flat ++ y) = f flat)
    (again : f (flat ++ returned y) = f flat) :
    Recut (flat ++ y) (f (flat ++ y)) (f (returned (flat ++ y))) := by
  rw [returned_append, returned_flat pure, stays, again]
  have within : '\n' ∉ (flat ++ y).take (f flat).2 := by
    rw [List.take_append_of_le_length bound]
    exact fun inside => pure (List.mem_of_mem_take inside)
  have found : Recut (flat ++ y) _ _ := .same (f flat).1 (f flat).2
  rw [returned_flat within, List.length_take_of_le (by rw [List.length_append]; omega)] at found
  exact found

theorem lineLength_flat (pure : '\n' ∉ flat) : lineLength flat = flat.length := by
  rw [lineLength, List.takeWhile_eq_self_iff.mpr]
  intro c inside
  rw [bne_iff_ne]
  rintro rfl
  exact pure inside

theorem Recut.to_line {content : Content} (gone : content.isKept = false) (rest : List Char) :
    Recut rest (content, lineLength rest) (content, lineLength (returned rest)) := by
  obtain ⟨flat, y, rfl, pure, rfl | ⟨more, rfl⟩⟩ := exists_line rest
  · have found : Recut flat _ _ := .same content flat.length
    rw [List.take_length, returned_flat pure] at found
    rwa [List.append_nil, returned_flat pure, lineLength_flat pure]
  · have ends : returned (flat ++ '\n' :: more) = (flat ++ ['\r']) ++ '\n' :: returned more := by
      rw [returned_append, returned_flat pure, returned_line, List.append_assoc,
        List.singleton_append]
    have wider : '\n' ∉ flat ++ ['\r'] := by
      simpa using pure
    have found : Recut (flat ++ '\n' :: more) _ _ := .longer more List.drop_left gone
    rw [List.take_left, returned_flat pure] at found
    rw [ends, lineLength_append_line, lineLength_append_line, lineLength_flat pure,
      lineLength_flat wider, List.length_append]
    exact found

theorem quotedLength?_append_return {quote : Char} (other : '\r' ≠ quote) (cs : List Char) :
    quotedLength? quote (cs ++ ['\r']) = quotedLength? quote cs :=
  quotedLength?_append (quotedLength?_other (by decide) (by decide) other [])
    (quotedLength?_escape quote '\r' []) cs

theorem Recut.quoted {f : List Char → Content × Nat} {quote : Char} (other : '\r' ≠ quote)
    (kind : Nat → Content) (unclosed : Fault)
    (closed : ∀ cs n, quotedLength? quote cs = some n → f cs = (kind n, n))
    (left : ∀ cs, quotedLength? quote cs = none → f cs = (.fault unclosed, lineLength cs))
    (rest : List Char) : Recut rest (f rest) (f (returned rest)) := by
  obtain ⟨flat, y, same, pure, ends⟩ := exists_line rest
  -- a quoted text is closed on its line or not at all, and the return before the end closes nothing
  have stays : quotedLength? quote rest = quotedLength? quote flat ∧
      quotedLength? quote (returned rest) = quotedLength? quote flat := by
    rw [same, returned_append, returned_flat pure]
    rcases ends with rfl | ⟨more, rfl⟩
    · rw [List.append_nil]
      exact ⟨rfl, congrArg _ (List.append_nil flat)⟩
    · rw [returned_line, List.append_cons flat '\r', quotedLength?_append_line,
        quotedLength?_append_line, quotedLength?_append_return other]
      exact ⟨rfl, rfl⟩
  cases found : quotedLength? quote flat with
  | none =>
    rw [left rest (stays.1.trans found), left (returned rest) (stays.2.trans found)]
    exact Recut.to_line rfl rest
  | some n =>
    have bound : (f flat).2 ≤ flat.length := by
      rw [closed flat n found]
      exact (quotedLength?_bounds found).2
    subst same
    rw [returned_append, returned_flat pure] at stays
    refine Recut.of_line pure bound ?_ ?_
    · rw [closed _ n found, closed _ n (stays.1.trans found)]
    · rw [closed _ n found, closed _ n (stays.2.trans found)]

end Recut

theorem rawLength?_returned {quote : Char} (feed : '\n' ≠ quote) (back : '\r' ≠ quote)
    (cs : List Char) : rawLength? quote (returned cs) =
      (rawLength? quote cs).map (fun n => (returned (cs.take n)).length) := by
  induction cs with
  | nil => rfl
  | cons c cs ih =>
    rw [rawLength?_cons]
    by_cases line : c = '\n'
    · rw [line, returned_line, rawLength?_cons, rawLength?_cons, if_neg back, if_neg feed,
        if_neg feed, ih, Option.map_map, Option.map_map, Option.map_map]
      rfl
    · rw [returned_cons line, rawLength?_cons]
      by_cases same : c = quote
      · rw [if_pos same, if_pos same, Option.map_some, List.take_succ_cons, List.take_zero,
          returned_cons line]
        rfl
      · rw [if_neg same, if_neg same, ih, Option.map_map, Option.map_map]
        refine congrArg (Option.map · _) (funext fun n => ?_)
        rw [Function.comp_apply, Function.comp_apply, List.take_succ_cons, returned_cons line,
          List.length_cons]

theorem blockLength?_returned (cs : List Char) : blockLength? (returned cs) =
    (blockLength? cs).map (fun n => (returned (cs.take n)).length) := by
  fun_induction blockLength? cs with
  | case1 rest => rfl
  | case2 c rest opens ih =>
    by_cases line : c = '\n'
    · rw [line, returned_line, blockLength?_cons (fun star => absurd star.1 (by decide)),
        blockLength?_cons (fun star => absurd star.1 (by decide)), ih, Option.map_map,
        Option.map_map, Option.map_map]
      rfl
    · have still : ¬ (c = '*' ∧ (returned rest).head? = some '/') := by
        rintro ⟨rfl, slash⟩
        obtain ⟨more, same⟩ := head?_of_returned (by decide) slash
        exact opens more rfl same
      rw [returned_cons line, blockLength?_cons still, ih, Option.map_map, Option.map_map]
      refine congrArg (Option.map · _) (funext fun n => ?_)
      rw [Function.comp_apply, Function.comp_apply, List.take_succ_cons, returned_cons line,
        List.length_cons]
  | case3 => rfl

theorem quotedContent_returned {quote : Char} (other : '\r' ≠ quote) (kind : Kind)
    (unclosed : Fault) (rest : List Char) :
    Recut rest (quotedContent quote kind unclosed rest)
      (quotedContent quote kind unclosed (returned rest)) := by
  refine Recut.quoted other (fun _ => .token kind) unclosed (fun cs n found => ?_)
    (fun cs found => ?_) rest
  · rw [quotedContent, found]
  · rw [quotedContent, found]

theorem runeContent_returned (rest : List Char) :
    Recut rest (runeContent rest) (runeContent (returned rest)) := by
  have other : '\r' ≠ '\'' := by decide
  refine Recut.quoted other (fun n => if n = 1 then .fault .emptyRune else .token .runeLiteral)
    .unterminatedRune (fun cs n found => ?_) (fun cs found => ?_) rest
  · rw [runeContent_of_closed found]
    split <;> rfl
  · rw [runeContent, quotedContent, found]

theorem rawContent_returned (rest : List Char) :
    Recut rest (rawContent rest) (rawContent (returned rest)) := by
  rw [rawContent, rawContent, rawLength?_returned (by decide) (by decide)]
  cases rawLength? '\x60' rest with
  | none =>
    have found : Recut rest _ _ := .same (.fault .unterminatedString) rest.length
    rwa [List.take_length] at found
  | some n => exact Recut.same _ n

theorem blockContent_returned {rest : List Char} (star : rest.head? = some '*') :
    Recut rest (blockContent rest) (blockContent (returned rest)) := by
  obtain ⟨more, rfl⟩ := List.head?_eq_some_iff.mp star
  have starred := returned_cons (c := '*') (by decide)
  simp only [blockContent, starred, List.drop_one, List.tail_cons, blockLength?_returned]
  cases blockLength? more with
  | none =>
    have found : Recut ('*' :: more) _ _ :=
      .same (.fault .unterminatedComment) ('*' :: more).length
    rwa [List.take_length, starred] at found
  | some n =>
    have found : Recut ('*' :: more) _ _ := .same .comment (n + 1)
    rwa [List.take_succ_cons, starred, List.length_cons] at found

theorem Recut.solid {f : List Char → Content × Nat} {rest : List Char}
    (bound : ∀ cs, (f cs).2 ≤ cs.length)
    (stops : ∀ flat y, AtBreak y → rest = flat ++ y → ∀ z, AtBreak z → f (flat ++ z) = f flat) :
    Recut rest (f rest) (f (returned rest)) := by
  obtain ⟨flat, y, rfl, pure, ends⟩ := exists_line rest
  have stop : AtBreak y := by
    rcases ends with rfl | ⟨more, rfl⟩
    · exact fun c head => by cases head
    · exact atBreak_line more
  have same := stops flat y stop rfl
  exact Recut.of_line pure (bound flat) (same y stop) (same _ (atBreak_returned stop))

theorem leadOf_returned (c : Char) (rest : List Char) :
    leadOf c (returned rest).head? = leadOf c rest.head? := by
  cases rest with
  | nil => rfl
  | cons d rest =>
    by_cases line : d = '\n'
    · have stop : AtBreak (d :: rest) := line ▸ atBreak_line rest
      rw [leadOf_break stop, leadOf_break (atBreak_returned stop)]
    · rw [returned_cons line]
      rfl

theorem contentAt_returned (c : Char) (rest : List Char) :
    Recut rest (contentAt c rest) (contentAt c (returned rest)) := by
  rw [contentAt_eq_lead, contentAt_eq_lead, leadOf_returned]
  cases lead : leadOf c rest.head? with
  | skipped => exact Recut.same .skipped 0
  | line => exact Recut.to_line rfl rest
  | block => exact blockContent_returned (leadOf_block lead)
  | word =>
    exact Recut.solid (wordContent_le c) fun flat _ _ _ _ stop => wordContent_break stop c flat
  | number =>
    refine Recut.solid (numberContent_le c) fun flat y stop same z other => ?_
    rw [same, leadOf_append_break stop] at lead
    exact numberContent_break other (leadOf_number lead)
  | string => exact quotedContent_returned (by decide) .stringLiteral .unterminatedString rest
  | raw => exact rawContent_returned rest
  | rune => exact runeContent_returned rest
  | operator =>
    exact Recut.solid (operatorContent_le c) fun flat _ _ _ _ stop =>
      operatorContent_break stop c flat

theorem segments_returned_cons {c : Char} (other : c ≠ '\n') {rest : List Char} {content : Content}
    {n : Nat} (found : contentAt c rest = (content, n)) :
    segments (returned (c :: rest)) =
        ⟨content, returned (c :: rest.take n)⟩ :: segments (returned (rest.drop n)) ∨
      content.isKept = false ∧ ∃ more, rest.drop n = '\n' :: more ∧
        segments (returned (c :: rest)) =
          ⟨content, returned (c :: rest.take n) ++ ['\r']⟩ :: segments ('\n' :: returned more) := by
  have cut := contentAt_returned c rest
  have text : returned rest = returned (rest.take n) ++ returned (rest.drop n) := by
    rw [← returned_append, List.take_append_drop]
  rw [returned_cons other, returned_cons other]
  generalize again : contentAt c (returned rest) = result at cut
  rw [found] at cut
  cases cut with
  | same =>
    rw [text] at again ⊢
    exact .inl (segments_of_content again)
  | longer more cut gone =>
    rw [cut, returned_line, List.append_cons] at text
    rw [text] at again ⊢
    refine .inr ⟨gone, more, cut, segments_of_content ?_⟩
    rw [again, List.length_append, List.length_singleton]

theorem after_returned (p : Place) (text : List Char) : p.after (returned text) = p.after text := by
  induction text generalizing p with
  | nil => rfl
  | cons c text ih =>
    by_cases line : c = '\n'
    · rw [line, returned_line]
      exact ih (p.next '\n')
    · rw [returned_cons line]
      exact ih (p.next c)

theorem filterMap_locate_cons {α : Type} (f : Located → Option α) (p : Place) (x : Segment)
    (xs : List Segment) : (locate p (x :: xs)).filterMap f =
      (f ⟨p, x⟩).toList ++ (locate (p.after x.text) xs).filterMap f := by
  rw [locate, List.filterMap_cons]
  cases f ⟨p, x⟩ <;> rfl

theorem filterMap_locate_skipped {α : Type} {f : Located → Option α}
    (skips : ∀ p text, f ⟨p, ⟨.skipped, text⟩⟩ = none) {c : Char} (skipped : isSkipped c = true)
    (p : Place) (cs : List Char) : (locate p (segments (c :: cs))).filterMap f =
      (locate (p.next c) (segments cs)).filterMap f := by
  rw [segments_of_isSkipped skipped, filterMap_locate_cons, skips]
  rfl

section Reading

/-! What is read off a segment with returns is what is read off the segment without, and the text of
a comment or fault does not matter. -/

variable {α : Type} {f g : Located → Option α}
  (skips : ∀ p text, f ⟨p, ⟨.skipped, text⟩⟩ = none)
  (same : ∀ p content text, f ⟨p, ⟨content, returned text⟩⟩ = g ⟨p, ⟨content, text⟩⟩)
  (gone : ∀ p content text other, content.isKept = false →
    f ⟨p, ⟨content, other⟩⟩ = g ⟨p, ⟨content, text⟩⟩)
include skips same gone

theorem filterMap_locate_returned (p : Place) (cs : List Char) :
    (locate p (segments (returned cs))).filterMap f = (locate p (segments cs)).filterMap g := by
  fun_induction segments cs generalizing p with
  | case1 =>
    rw [returned, List.flatMap_nil, segments_nil]
    rfl
  | case2 c rest found ih =>
    by_cases line : c = '\n'
    · subst line
      have first : found = (.skipped, 0) := contentAt_of_isSkipped rfl rest
      simp only [first, List.drop_zero, List.take_zero] at ih ⊢
      rw [returned_line, filterMap_locate_skipped skips rfl, filterMap_locate_skipped skips rfl,
        filterMap_locate_cons, ← same, skips, ← ih]
      rfl
    · obtain ⟨content, n, is⟩ : ∃ content n, contentAt c rest = (content, n) := ⟨_, _, rfl⟩
      have here : found = (content, n) := is
      simp only [here] at ih ⊢
      obtain whole | ⟨dropped, more, cut, whole⟩ := segments_returned_cons line is
      · rw [whole, filterMap_locate_cons, filterMap_locate_cons, same, after_returned, ih]
      · rw [whole, filterMap_locate_cons, filterMap_locate_cons,
          gone p content (c :: rest.take n) _ dropped, ← ih, cut, returned_line,
          filterMap_locate_skipped skips (c := '\r') rfl, after_append, after_returned]
        rfl

end Reading

theorem token?_of_gone (p : Place) {content : Content} (gone : content.isKept = false)
    (text : List Char) : Located.token? ⟨p, ⟨content, text⟩⟩ = none := by
  cases content with
  | token kind => cases gone
  | _ => rfl

theorem token?_returned (p : Place) (content : Content) (text : List Char) :
    Located.token? ⟨p, ⟨content, returned text⟩⟩ =
      (Located.token? ⟨p, ⟨content, text⟩⟩).map Token.withReturns := by
  cases content with
  | token kind => simp [Located.token?, Token.withReturns, withReturns]
  | _ => rfl

/-- A text whose line ends are written with carriage returns has the same tokens and errors at the
same places, and the values of its tokens have the returns. -/
theorem ofText_withReturns (source : String) :
    ofText (withReturns source) =
      ⟨(ofText source).tokens.map Token.withReturns, (ofText source).errors⟩ := by
  have tokens := filterMap_locate_returned (f := Located.token?)
    (g := fun x => x.token?.map Token.withReturns) (fun _ _ => rfl) token?_returned
    (fun p _ _ _ gone => by rw [token?_of_gone p gone, token?_of_gone p gone]; rfl)
    .first source.toList
  have errors := filterMap_locate_returned (f := Located.diagnostic?) (g := Located.diagnostic?)
    (fun _ _ => rfl) (fun _ content _ => by cases content <;> rfl)
    (fun _ content _ _ _ => by cases content <;> rfl) .first source.toList
  rw [ofText_eq, ofText_eq, withReturns, String.toList_ofList, ofSegments, ofSegments, tokens,
    errors, List.map_filterMap]

example : ofText (withReturns "`a\nb`\n'\\\n") =
    ⟨[⟨.stringLiteral, "`a\r\nb`", 1, 1⟩], [⟨.unterminatedRune, 3, 1⟩]⟩ := by decide +kernel

end Scan

end LexicalReport
