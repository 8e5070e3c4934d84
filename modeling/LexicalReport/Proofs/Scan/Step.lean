import LexicalReport.Proofs.Scan.Cursor
import LexicalReport.Proofs.Scan.Segment

/-! Each step of a walk takes the segment that begins at the cursor, and notes it if it is a token
or a fault. No step reaches outside the text. -/

namespace LexicalReport.Scan.Cursor

open Token (Kind)

variable {s : Cursor} {c : Char} {rest : List Char}

theorem ahead_advance_cons (next : s.ahead = c :: rest) : s.advance.ahead = rest := by
  rw [ahead_advance, next, List.tail_cons]

theorem takeLine_eq (next : s.ahead = c :: rest) (other : c ≠ '\n') :
    s.takeLine = s.taking (.comment, lineLength rest) := by
  rw [takeLine, advanceWhile_eq, next, List.takeWhile_cons_of_pos (by simpa using other)]
  rfl

theorem closeBlock_eq (s : Cursor) : s.closeBlock =
    match blockLength? s.ahead with
    | some n => (advanceBy n s, true)
    | none => (advanceBy s.ahead.length s, false) := by
  fun_induction closeBlock s with
  | case1 s found =>
    rw [ahead_of_peek?_none found]
    rfl
  | case2 s c found closes =>
    obtain ⟨rest, next⟩ := ahead_of_peek? found
    obtain ⟨rfl, slash⟩ := closes
    rw [peek?_eq_head?, ahead_advance_cons next] at slash
    obtain ⟨more, rfl⟩ := List.head?_eq_some_iff.mp slash
    rw [next]
    rfl
  | case3 s c found opens ih =>
    obtain ⟨rest, next⟩ := ahead_of_peek? found
    rw [peek?_eq_head?, ahead_advance_cons next] at opens
    rw [ih, ahead_advance_cons next, next, blockLength?_cons opens]
    cases blockLength? rest <;> rfl

theorem closeQuoted_eq (quote : Char) (s : Cursor) : s.closeQuoted quote =
    match quotedLength? quote s.ahead with
    | some n => (advanceBy n s, true)
    | none => (advanceBy (lineLength s.ahead) s, false) := by
  fun_induction closeQuoted quote s with
  | case1 s found =>
    rw [ahead_of_peek?_none found]
    rfl
  | case2 s found =>
    obtain ⟨rest, next⟩ := ahead_of_peek? found
    rw [next, quotedLength?_line]
    rfl
  | case3 s found line ih =>
    obtain ⟨rest, next⟩ := ahead_of_peek? found
    have after := ahead_advance_cons next
    rw [ih, next, lineLength_cons (by decide)]
    cases rest with
    | nil => simp [skipEscaped, peek?_eq_head?, after, quotedLength?, lineLength, advanceBy]
    | cons d more =>
      rw [quotedLength?_escape]
      by_cases ends : d = '\n'
      · simp [skipEscaped, peek?_eq_head?, after, quotedLength?_line, lineLength, advanceBy, ends]
      · have beyond := ahead_advance_cons after
        have skips : s.advance.skipEscaped = s.advance.advance :=
          if_pos (by simpa [peek?_eq_head?, after] using ends)
        rw [skips, beyond, if_neg ends, lineLength_cons ends]
        cases quotedLength? quote more <;> rfl
  | case4 s found line slash =>
    obtain ⟨rest, next⟩ := ahead_of_peek? found
    rw [next, quotedLength?_close line slash]
    rfl
  | case5 s c found line slash other ih =>
    obtain ⟨rest, next⟩ := ahead_of_peek? found
    rw [ih, next, lineLength_cons line, ahead_advance_cons next,
      quotedLength?_other line slash other]
    cases quotedLength? quote rest <;> rfl

theorem takeBlock?_eq (inText : s.InText) (next : s.ahead = c :: rest)
    (star : rest.head? = some '*') : s.takeBlock? = some (s.taking (blockContent rest)) := by
  obtain ⟨more, rfl⟩ := List.head?_eq_some_iff.mp star
  have after := ahead_advance_cons (ahead_advance_cons next)
  simp only [takeBlock?, mark?_eq inText, closeBlock_eq, after, blockContent, List.drop_one,
    List.tail_cons, Option.bind_eq_bind, Option.bind_some]
  cases blockLength? more with
  | none => exact congrArg some (noteFault_advanceBy (more.length + 1) s .unterminatedComment)
  | some n => rfl

theorem isWordPart_of_isWordStart (begins : isWordStart c = true) : isWordPart c = true := by
  simp only [isWordStart, isWordPart] at *
  rw [begins, Bool.true_or]

theorem takeWord?_eq (inText : s.InText) (next : s.ahead = c :: rest)
    (begins : isWordStart c = true) : s.takeWord? = some (s.taking (wordContent c rest)) := by
  have inside : wordLength rest < s.ahead.length := by
    rw [next, List.length_cons]
    exact Nat.lt_succ_of_le (wordContent_le c rest)
  have moved : s.advanceWhile isWordPart = advanceBy (wordLength rest + 1) s := by
    rw [advanceWhile_eq, next, List.takeWhile_cons_of_pos (isWordPart_of_isWordStart begins)]
    rfl
  simp only [takeWord?, mark?_eq inText, moved, textFrom?_advanceBy inText inside,
    noteToken?_advanceBy inText inside, Option.bind_eq_bind, Option.bind_some, next, wordContent,
    List.take_succ_cons]

theorem quotedLength?_lt_ahead (next : s.ahead = c :: rest) {quote : Char} {n : Nat}
    (closed : quotedLength? quote rest = some n) : n < s.ahead.length := by
  rw [next, List.length_cons]
  exact Nat.lt_succ_of_le (quotedLength?_bounds closed).2

theorem takeString?_eq (inText : s.InText) (next : s.ahead = c :: rest) :
    s.takeString? =
      some (s.taking (quotedContent '"' .stringLiteral .unterminatedString rest)) := by
  simp only [takeString?, mark?_eq inText, closeQuoted_eq, ahead_advance_cons next, quotedContent,
    Option.bind_eq_bind, Option.bind_some]
  cases closed : quotedLength? '"' rest with
  | none => exact congrArg some (noteFault_advanceBy _ s _)
  | some n => exact noteToken?_advanceBy inText (quotedLength?_lt_ahead next closed) _

theorem takeRune?_eq (inText : s.InText) (next : s.ahead = c :: rest) :
    s.takeRune? = some (s.taking (runeContent rest)) := by
  simp only [takeRune?, mark?_eq inText, closeQuoted_eq, ahead_advance_cons next,
    Option.bind_eq_bind, Option.bind_some]
  cases closed : quotedLength? '\'' rest with
  | none =>
    have same : runeContent rest = (.fault .unterminatedRune, lineLength rest) := by
      rw [runeContent, quotedContent, closed]
    rw [same]
    exact congrArg some (noteFault_advanceBy _ s _)
  | some n =>
    have inside := quotedLength?_lt_ahead next closed
    have text := textFrom?_advanceBy inText (n := n + 1) inside
    have length : (s.ahead.take (n + 1)).length = n + 1 := List.length_take_of_le inside
    rw [advanceBy] at text
    simp only [text, Option.bind_some, length, runeContent_of_closed closed, Nat.reduceEqDiff]
    split
    · exact congrArg some (noteFault_advanceBy _ s _)
    · exact noteToken?_advanceBy inText inside _

theorem rawLength?_eq (quote : Char) (cs : List Char) :
    rawLength? quote cs = (cs.drop (cs.takeWhile (· != quote)).length).head?.map
      (fun _ => (cs.takeWhile (· != quote)).length + 1) := by
  induction cs with
  | nil => rfl
  | cons c rest ih =>
    rw [rawLength?_cons]
    by_cases same : c = quote
    · simp [same]
    · simp [same, ih, Function.comp_def]

theorem takeRaw?_eq (inText : s.InText) (next : s.ahead = c :: rest) :
    s.takeRaw? = some (s.taking (rawContent rest)) := by
  have after := ahead_advance_cons next
  have raw := rawLength?_eq '\x60' rest
  simp only [takeRaw?, mark?_eq inText, advanceWhile_eq, after, peek?_eq_head?, ahead_advanceBy,
    rawContent, Option.bind_eq_bind, Option.bind_some]
  cases found : (rest.drop (rest.takeWhile (· != '\x60')).length).head? with
  | none =>
    rw [found, Option.map_none] at raw
    have all : (rest.takeWhile (· != '\x60')).length = rest.length := by
      rw [List.head?_eq_none_iff, List.drop_eq_nil_iff] at found
      exact Nat.le_antisymm (length_takeWhile_le _ _) found
    rw [raw, all]
    exact congrArg some (noteFault_advanceBy rest.length s _)
  | some d =>
    rw [found, Option.map_some] at raw
    have inside := (rawLength?_bounds raw).2
    rw [raw]
    dsimp only
    rw [advanceBy_succ]
    refine noteToken?_advanceBy (n := (rest.takeWhile (· != '\x60')).length + 1) inText ?_ _
    rw [next, List.length_cons]
    exact Nat.lt_succ_of_le inside

theorem opensFraction_iff (s : Cursor) :
    s.opensFraction = true ↔ ∃ rest, s.ahead = '.' :: rest ∧ rest.head? ≠ some '.' := by
  rw [opensFraction, peek?_eq_head?, peekAt?_eq]
  cases s.ahead with
  | nil => simp
  | cons c rest => simp [← List.head?_eq_getElem?]

theorem fractionLength_of_opens (opens : s.opensFraction = true) :
    fractionLength s.ahead = 1 + decimalLength s.ahead.tail := by
  obtain ⟨rest, next, other⟩ := (opensFraction_iff s).mp opens
  rw [next, fractionLength, if_neg other, List.tail_cons]

theorem fractionLength_of_not_opens (closed : ¬ s.opensFraction = true) :
    fractionLength s.ahead = 0 := by
  rw [opensFraction_iff] at closed
  unfold fractionLength
  split
  · rename_i rest next
    rw [if_pos]
    by_contra other
    exact closed ⟨rest, next, other⟩
  · rfl

theorem opensFraction_eq (s : Cursor) :
    s.opensFraction = decide (0 < fractionLength s.ahead) := by
  by_cases opens : s.opensFraction = true
  · rw [fractionLength_of_opens opens, opens, decide_eq_true (by omega)]
  · rw [fractionLength_of_not_opens opens, decide_eq_false (Nat.lt_irrefl 0)]
    exact Bool.eq_false_iff.mpr opens

theorem takeFraction_eq (s : Cursor) :
    s.takeFraction = advanceBy (fractionLength s.ahead) s := by
  rw [takeFraction]
  by_cases opens : s.opensFraction = true
  · rw [if_pos opens, advanceWhile_eq, fractionLength_of_opens opens, ahead_advance,
      Nat.add_comm]
    rfl
  · rw [if_neg opens, fractionLength_of_not_opens opens]
    rfl

theorem opensExponent_iff (s : Cursor) : s.opensExponent = true ↔
    ∃ mark rest, s.ahead = mark :: rest ∧ isExponentMark mark = true ∧ 0 < powerLength rest := by
  rw [opensExponent, peek?_eq_head?, peekAt?_eq, peekAt?_eq]
  rcases s.ahead with _ | ⟨mark, rest⟩
  · simp
  · simp [powerLength_pos_iff, headIsDigit, isExponentMark, List.head?_eq_getElem?]

theorem exponentLength_of_opens (opens : s.opensExponent = true) :
    0 < powerLength s.ahead.tail ∧ exponentLength s.ahead = 1 + powerLength s.ahead.tail := by
  obtain ⟨mark, rest, next, letter, power⟩ := (opensExponent_iff s).mp opens
  rw [next, exponentLength_cons, if_pos ⟨letter, power⟩, List.tail_cons]
  exact ⟨power, rfl⟩

theorem exponentLength_of_not_opens (closed : ¬ s.opensExponent = true) :
    exponentLength s.ahead = 0 := by
  rw [opensExponent_iff] at closed
  cases next : s.ahead with
  | nil => rfl
  | cons mark rest =>
    rw [exponentLength_cons]
    exact if_neg fun both => closed ⟨mark, rest, next, both⟩

theorem opensExponent_eq (s : Cursor) :
    s.opensExponent = decide (0 < exponentLength s.ahead) := by
  by_cases opens : s.opensExponent = true
  · rw [(exponentLength_of_opens opens).2, opens, decide_eq_true (by omega)]
  · rw [exponentLength_of_not_opens opens, decide_eq_false (Nat.lt_irrefl 0)]
    exact Bool.eq_false_iff.mpr opens

theorem takeExponent_eq (s : Cursor) :
    s.takeExponent = advanceBy (exponentLength s.ahead) s := by
  rw [takeExponent]
  by_cases opens : s.opensExponent = true
  · obtain ⟨power, length⟩ := exponentLength_of_opens opens
    rw [if_pos opens, length]
    dsimp only
    rw [peek?_eq_head?, ahead_advance]
    by_cases sign : s.ahead.tail.head?.any isSign = true
    · rw [if_pos sign, powerLength_of_sign sign power, advanceWhile_eq, ahead_advance,
        ahead_advance, Nat.add_comm, Nat.add_comm 1 (decimalLength _)]
      rfl
    · rw [if_neg sign, powerLength_of_no_sign sign power, advanceWhile_eq, ahead_advance,
        Nat.add_comm]
      rfl
  · rw [if_neg opens, exponentLength_of_not_opens opens]
    rfl

theorem note_numeral (inText : s.InText) (next : s.ahead = c :: rest)
    (number : beginsNumber (c :: rest) = true) :
    (match (numeral (c :: rest)).kind with
      | some kind => (advanceBy (numeral (c :: rest)).length s).noteToken? kind
          ⟨s.position, s.line, s.place.column⟩
      | none => some ((advanceBy (numeral (c :: rest)).length s).noteFault
          (.malformedNumber (String.ofList ((c :: rest).take (numeral (c :: rest)).length)))
          ⟨s.position, s.line, s.place.column⟩)) =
      some (s.taking (numberContent c rest)) := by
  have bound := numeral_length_le (c :: rest)
  obtain ⟨n, length⟩ := Nat.exists_eq_add_one.mpr (numeral_length_pos number)
  rw [length, ← next] at bound
  simp only [numberContent, length, Nat.add_sub_cancel]
  cases (numeral (c :: rest)).kind with
  | some kind => exact noteToken?_advanceBy inText bound kind
  | none => exact congrArg some (noteFault_advanceBy n s _)

theorem takePlainNumber?_eq (inText : s.InText) (mark : Mark) (same : mark.position = s.position) :
    s.takePlainNumber? mark =
      match (plainNumeral s.ahead).kind with
      | some kind => (advanceBy (plainNumeral s.ahead).length s).noteToken? kind mark
      | none => some ((advanceBy (plainNumeral s.ahead).length s).noteFault
          (.malformedNumber (String.ofList (s.ahead.take (plainNumeral s.ahead).length)))
          mark) := by
  have text := textFrom?_advanceBy inText (plainNumeral_length_le s.ahead)
  simp only [plainNumeral] at text
  simp only [takePlainNumber?, advanceWhile_eq, takeFraction_eq, takeExponent_eq, opensFraction_eq,
    opensExponent_eq, ahead_advanceBy, advanceBy_advanceBy, same, text, Option.bind_eq_bind,
    Option.bind_some, plainNumeral, ← Bool.decide_or, decide_eq_true_iff,
    ← Nat.add_pos_iff_pos_or_pos]
  generalize fractionLength (s.ahead.drop (s.ahead.takeWhile isDecimal).length) = fraction
  generalize exponentLength (s.ahead.drop ((s.ahead.takeWhile isDecimal).length + fraction)) =
    exponent
  by_cases long : 0 < fraction + exponent
  · rw [if_pos long, if_pos long]
  · have whole : s.ahead.take ((s.ahead.takeWhile isDecimal).length + fraction + exponent) =
        s.ahead.takeWhile isDecimal := by
      rw [Nat.add_assoc, Nat.eq_zero_of_not_pos long, Nat.add_zero, take_length_takeWhile]
    rw [if_neg long, if_neg long, whole]
    split <;> rfl

theorem takeRadixNumber?_eq (inText : s.InText) (mark : Mark) (same : mark.position = s.position)
    {zero letter : Char} (next : s.ahead = zero :: letter :: rest) (isDigit : Char → Bool) :
    s.takeRadixNumber? isDigit mark =
      match (radixNumeral isDigit rest).kind with
      | some kind => (advanceBy (radixNumeral isDigit rest).length s).noteToken? kind mark
      | none => some ((advanceBy (radixNumeral isDigit rest).length s).noteFault
          (.malformedNumber (String.ofList (s.ahead.take (radixNumeral isDigit rest).length)))
          mark) := by
  have after := ahead_advance_cons (ahead_advance_cons next)
  have opened := inText_advance (inText_advance inText)
  have inside := length_takeWhile_le (fun d => d == '_' || isDigit d) rest
  rw [← after] at inside
  have digits := textFrom?_advanceBy opened inside
  have bound := radixNumeral_length_le isDigit rest
  have text : (advanceBy (radixNumeral isDigit rest).length s).textFrom? s.position = _ :=
    textFrom?_advanceBy inText (by simpa [next] using bound)
  rw [after, take_length_takeWhile] at digits
  have moved : advanceBy (rest.takeWhile (fun d => d == '_' || isDigit d)).length
      s.advance.advance = advanceBy (radixNumeral isDigit rest).length s :=
    advanceBy_advanceBy 2 _ s
  rw [moved] at digits
  simp only [takeRadixNumber?, advanceWhile_eq, after, moved, digits, same, text,
    Option.bind_eq_bind, Option.bind_some]
  simp only [radixNumeral]
  split <;> rfl

theorem radixAhead?_eq (s : Cursor) : s.radixAhead? = radixOf? s.ahead := by
  rw [radixAhead?, peek?_eq_head?, peekAt?_eq, radixOf?]

theorem takeNumber?_eq (inText : s.InText) (next : s.ahead = c :: rest)
    (number : beginsNumber (c :: rest) = true) :
    s.takeNumber? = some (s.taking (numberContent c rest)) := by
  simp only [takeNumber?, mark?_eq inText, radixAhead?_eq, ← note_numeral inText next number,
    Option.bind_eq_bind, Option.bind_some, numeral_eq, ← next]
  cases found : radixOf? s.ahead with
  | none => exact takePlainNumber?_eq inText _ rfl
  | some isDigit =>
    obtain ⟨letter, more, same⟩ := radixOf?_eq_some found
    rw [same, List.drop_succ_cons, List.drop_succ_cons, List.drop_zero, ← same]
    exact takeRadixNumber?_eq inText _ rfl same isDigit

theorem spells_eq (s : Cursor) (spelling : List Char) :
    s.spells spelling = spelling.isPrefixOf s.ahead := by
  rw [spells, Array.toList_extract, List.extract_eq_take_drop, Nat.add_sub_cancel_left, ← ahead,
    Bool.eq_iff_iff, beq_iff_eq, List.isPrefixOf_iff_prefix, List.prefix_iff_eq_take, eq_comm]

theorem operatorAhead?_eq (inText : s.InText) : s.operatorAhead? = some (operatorAt s.ahead) := by
  rw [operatorAhead?, if_pos inText.position_le, operatorAt]
  simp only [spells_eq]

theorem takeOperator?_eq (inText : s.InText) (next : s.ahead = c :: rest) :
    s.takeOperator? = some (s.taking (operatorContent c rest)) := by
  simp only [takeOperator?, mark?_eq inText, operatorAhead?_eq inText, peek?_of_ahead next,
    Option.bind_eq_bind, Option.bind_some, operatorContent, next]
  cases found : operatorAt (c :: rest) with
  | none => exact congrArg some (noteFault_advanceBy 0 s _)
  | some entry =>
    have bounds := operatorAt_bounds found
    obtain ⟨n, length⟩ := Nat.exists_eq_add_one.mpr bounds.1
    rw [← next, length] at bounds
    simp only [length, Nat.add_sub_cancel]
    exact noteToken?_advanceBy inText bounds.2 _

theorem ite_eq_taking {p : Prop} [Decidable p] {s : Cursor} {a b : Option Cursor}
    {x y : Content × Nat} (yes : p → a = some (s.taking x)) (no : ¬ p → b = some (s.taking y)) :
    (if p then a else b) = some (s.taking (if p then x else y)) := by
  by_cases holds : p
  · rw [if_pos holds, if_pos holds, yes holds]
  · rw [if_neg holds, if_neg holds, no holds]

theorem step?_eq (inText : s.InText) (next : s.ahead = c :: rest) :
    s.step? c = some (s.taking (contentAt c rest)) := by
  have second : s.peekAt? 1 = rest.head? := by
    rw [peekAt?_eq, next, List.getElem?_cons_succ, List.head?_eq_getElem?]
  have number : beginsNumber (c :: rest) = true ↔
      c.isDigit = true ∨ c = '.' ∧ rest.head?.any Char.isDigit = true := beginsNumber_iff
  rw [step?, contentAt, second, ← ite_or]
  refine ite_eq_taking (fun _ => rfl) fun _ => ?_
  refine ite_eq_taking (fun line => congrArg some (takeLine_eq next (by simp [line.1])))
    fun _ => ?_
  refine ite_eq_taking (fun block => takeBlock?_eq inText next block.2) fun _ => ?_
  refine ite_eq_taking (fun word => takeWord?_eq inText next word) fun _ => ?_
  simp only [number]
  refine ite_eq_taking (fun begins => takeNumber?_eq inText next (number.mpr begins)) fun _ => ?_
  refine ite_eq_taking (fun _ => takeString?_eq inText next) fun _ => ?_
  refine ite_eq_taking (fun _ => takeRaw?_eq inText next) fun _ => ?_
  exact ite_eq_taking (fun _ => takeRune?_eq inText next) fun _ => takeOperator?_eq inText next

end LexicalReport.Scan.Cursor
