import LexicalReport.Proofs.Scan.Lookahead

/-! What a segment is to be is decided by its first character and at most one more. A token that
ends before two texts depart from each other begins both, if the second is at a break there. -/

namespace LexicalReport.Scan

open Token (Kind)

inductive Lead
  | skipped
  | line
  | block
  | word
  | number
  | string
  | raw
  | rune
  | operator
deriving DecidableEq, Repr

def leadOf (c : Char) (next : Option Char) : Lead :=
  if isSkipped c then .skipped
  else if c = '/' ∧ next = some '/' then .line
  else if c = '/' ∧ next = some '*' then .block
  else if isWordStart c then .word
  else if c.isDigit ∨ c = '.' ∧ next.any Char.isDigit then .number
  else if c = '"' then .string
  else if c = '\x60' then .raw
  else if c = '\'' then .rune
  else .operator

namespace Lead

def content (c : Char) (rest : List Char) : Lead → Content × Nat
  | skipped => (.skipped, 0)
  | line => (.comment, lineLength rest)
  | block => blockContent rest
  | word => wordContent c rest
  | number => numberContent c rest
  | string => quotedContent '"' .stringLiteral .unterminatedString rest
  | raw => rawContent rest
  | rune => runeContent rest
  | operator => operatorContent c rest

end Lead

theorem contentAt_eq_lead (c : Char) (rest : List Char) :
    contentAt c rest = (leadOf c rest.head?).content c rest := by
  have numbers : (rest.head?.any Char.isDigit = true) = (headIsDigit rest = true) := rfl
  simp only [contentAt, leadOf, beginsNumber_iff, numbers]
  split_ifs <;> rfl

theorem leadOf_number {c : Char} {rest : List Char} (lead : leadOf c rest.head? = .number) :
    beginsNumber (c :: rest) = true := by
  rw [beginsNumber_iff]
  unfold leadOf at lead
  split_ifs at lead
  assumption

theorem leadOf_block {c : Char} {next : Option Char} (lead : leadOf c next = .block) :
    next = some '*' := by
  unfold leadOf at lead
  split_ifs at lead with _ _ block
  exact block.2

theorem leadOf_raw {c : Char} {next : Option Char} (lead : leadOf c next = .raw) :
    c = '\x60' := by
  unfold leadOf at lead
  split_ifs at lead
  assumption

theorem leadOf_next {c : Char} (slash : c ≠ '/') (point : c ≠ '.') (next other : Option Char) :
    leadOf c next = leadOf c other := by
  simp only [leadOf, slash, point, false_and, if_false]

theorem leadOf_slash (next : Option Char) : leadOf '/' next =
    if next = some '/' then .line else if next = some '*' then .block else .operator := by
  have solid : isSkipped '/' = false := by decide
  have word : isWordStart '/' = false := by decide +kernel
  have digit : '/'.isDigit = false := by decide
  simp [leadOf, solid, word, digit]

theorem leadOf_point (next : Option Char) : leadOf '.' next =
    if next.any Char.isDigit then .number else .operator := by
  have solid : isSkipped '.' = false := by decide
  have word : isWordStart '.' = false := by decide +kernel
  have digit : '.'.isDigit = false := by decide
  simp [leadOf, solid, word, digit]

/-! The segments that delimiters begin. -/

theorem contentAt_line {rest : List Char} (slash : rest.head? = some '/') :
    contentAt '/' rest = (.comment, lineLength rest) := by
  rw [contentAt_eq_lead, slash, leadOf_slash]
  rfl

theorem contentAt_block {rest : List Char} (star : rest.head? = some '*') :
    contentAt '/' rest = blockContent rest := by
  rw [contentAt_eq_lead, star, leadOf_slash]
  rfl

theorem contentAt_string (rest : List Char) : contentAt '"' rest =
    quotedContent '"' .stringLiteral .unterminatedString rest := by
  have lead : leadOf '"' none = .string := by decide +kernel
  rw [contentAt_eq_lead, leadOf_next (by decide) (by decide) _ none, lead]
  rfl

theorem contentAt_raw (rest : List Char) : contentAt '\x60' rest = rawContent rest := by
  have lead : leadOf '\x60' none = .raw := by decide +kernel
  rw [contentAt_eq_lead, leadOf_next (by decide) (by decide) _ none, lead]
  rfl

theorem contentAt_rune (rest : List Char) : contentAt '\'' rest = runeContent rest := by
  have lead : leadOf '\'' none = .rune := by decide +kernel
  rw [contentAt_eq_lead, leadOf_next (by decide) (by decide) _ none, lead]
  rfl

theorem leadOf_break {y : List Char} (stop : AtBreak y) (c : Char) :
    leadOf c y.head? = leadOf c none := by
  by_cases slash : c = '/'
  · have noLine : y.head? ≠ some '/' := stop.head?_ne (by decide)
    have noBlock : y.head? ≠ some '*' := stop.head?_ne (by decide)
    rw [slash, leadOf_slash, leadOf_slash, if_neg noLine, if_neg noBlock]
    rfl
  · by_cases point : c = '.'
    · rw [point, leadOf_point, leadOf_point, stop.head?_any breaks_isDigit]
      rfl
    · exact leadOf_next slash point _ _

/-- The next character matters only where it opens a comment, or a number after a point. -/
theorem leadOf_none (c : Char) (next : Option Char) :
    leadOf c none = leadOf c next ∨ leadOf c next = .line ∨ leadOf c next = .block ∨
      c = '.' ∧ leadOf c next = .number := by
  by_cases slash : c = '/'
  · rw [slash, leadOf_slash, leadOf_slash]
    by_cases line : next = some '/'
    · exact .inr (.inl (if_pos line))
    · rw [if_neg line]
      by_cases block : next = some '*'
      · exact .inr (.inr (.inl (if_pos block)))
      · exact .inl (if_neg block).symm
  · by_cases point : c = '.'
    · rw [point, leadOf_point, leadOf_point]
      by_cases digit : next.any Char.isDigit = true
      · exact .inr (.inr (.inr ⟨rfl, if_pos digit⟩))
      · exact .inl (if_neg digit).symm
    · exact .inl (leadOf_next slash point _ _)

section Shared

variable {shared x y : List Char} (stop : AtBreak y)
include stop

theorem wordContent_shared {c : Char} (inside : (wordContent c (shared ++ x)).2 ≤ shared.length) :
    wordContent c (shared ++ y) = wordContent c (shared ++ x) := by
  have same := takeWhile_shared stop breaks_isWordPart inside
  have text : (shared ++ y).take ((shared ++ x).takeWhile isWordPart).length =
      (shared ++ x).take ((shared ++ x).takeWhile isWordPart).length := by
    rw [take_length_takeWhile, ← same, take_length_takeWhile]
  simp only [wordContent, wordLength, text, same]

theorem numberContent_shared {c : Char} (begins : beginsNumber (c :: (shared ++ x)) = true)
    (inside : (numberContent c (shared ++ x)).2 ≤ shared.length)
    (point : x.head? = some '.' → (numberContent c (shared ++ x)).2 = shared.length) :
    numberContent c (shared ++ y) = numberContent c (shared ++ x) := by
  have length := numeral_length_pos begins
  rw [numberContent_snd] at inside point
  have bound : (numeral (c :: (shared ++ x))).length ≤ (c :: shared).length := by
    rw [List.length_cons]
    omega
  have full (head : x.head? = some '.') :
      (numeral (c :: (shared ++ x))).length = (c :: shared).length := by
    have rest := point head
    rw [List.length_cons]
    omega
  have same : numeral (c :: (shared ++ y)) = numeral (c :: (shared ++ x)) :=
    @numeral_shared (c :: shared) x y stop bound begins full
  have text (z : List Char) : (c :: (shared ++ z)).take (numeral (c :: (shared ++ x))).length =
      (c :: shared).take (numeral (c :: (shared ++ x))).length :=
    List.take_append_of_le_length bound
  simp only [numberContent, same, text]

theorem operatorContent_shared {c : Char}
    (inside : (operatorContent c (shared ++ x)).2 ≤ shared.length) :
    operatorContent c (shared ++ y) = operatorContent c (shared ++ x) := by
  cases found : operatorAt (c :: (shared ++ x)) with
  | none =>
    have same := @operatorAt_none_shared (c :: shared) x y stop found
    rw [operatorContent, operatorContent, found, ← List.cons_append, same]
  | some entry =>
    obtain ⟨kind, n⟩ := entry
    have bounds := operatorAt_bounds found
    rw [operatorContent, found] at inside
    have within : n ≤ (c :: shared).length := by
      simp only [List.length_cons] at inside ⊢
      omega
    have same := @operatorAt_shared (c :: shared) x y stop kind n found within
    rw [operatorContent, operatorContent, found, ← List.cons_append, same]

/-! What is made of solid characters is the same before a break as at the end of the text. -/

theorem wordContent_break (c : Char) (cs : List Char) :
    wordContent c (cs ++ y) = wordContent c cs := by
  have same := @wordContent_shared cs [] y stop c
  rw [List.append_nil] at same
  exact same (wordContent_le c cs)

theorem numberContent_break {c : Char} {cs : List Char} (begins : beginsNumber (c :: cs) = true) :
    numberContent c (cs ++ y) = numberContent c cs := by
  have same := @numberContent_shared cs [] y stop c
  rw [List.append_nil] at same
  exact same begins (numberContent_le c cs) (fun head => by cases head)

theorem operatorContent_break (c : Char) (cs : List Char) :
    operatorContent c (cs ++ y) = operatorContent c cs := by
  have same := @operatorContent_shared cs [] y stop c
  rw [List.append_nil] at same
  exact same (operatorContent_le c cs)

theorem leadOf_append_break (c : Char) (cs : List Char) :
    leadOf c (cs ++ y).head? = leadOf c cs.head? := by
  cases cs with
  | nil => exact leadOf_break stop c
  | cons d cs => rfl

end Shared

theorem numberContent_point_pos {rest : List Char} (digit : headIsDigit rest = true) :
    0 < (numberContent '.' rest).2 := by
  have plain : radixOf? ('.' :: rest) = none := rfl
  have length := (plainNumeral_point digit).2
  rw [numberContent_snd, numeral_of_radixOf?_none plain]
  omega

theorem blockContent_ne_token (rest : List Char) (k : Kind) : (blockContent rest).1 ≠ .token k := by
  unfold blockContent
  split <;> exact fun same => by cases same

theorem leadOf_shared {shared x y : List Char} (stop : AtBreak y) {c : Char} {k : Kind} {n : Nat}
    (found : contentAt c (shared ++ x) = (.token k, n)) (inside : n ≤ shared.length) :
    leadOf c (shared ++ y).head? = leadOf c (shared ++ x).head? := by
  cases shared with
  | cons d shared => rfl
  | nil =>
    rw [contentAt_eq_lead] at found
    rcases leadOf_none c x.head? with same | line | block | ⟨rfl, number⟩
    · exact (leadOf_break stop c).trans same
    · rw [List.nil_append, line] at found
      cases found
    · rw [List.nil_append, block] at found
      exact absurd (congrArg Prod.fst found) (blockContent_ne_token x k)
    · have digit : headIsDigit x = true := @leadOf_number '.' x number
      have long := numberContent_point_pos digit
      rw [List.nil_append, number, Lead.content] at found
      rw [found] at long
      exact absurd inside (Nat.not_le.mpr long)

/-! Literals that are closed. -/

section Literals

variable {k : Kind} {rest : List Char} {n : Nat}

theorem quotedLength?_of_quoted {quote : Char} {kind : Kind} {unclosed : Fault}
    (found : quotedContent quote kind unclosed rest = (.token k, n)) :
    quotedLength? quote rest = some n := by
  rw [quotedContent] at found
  split at found
  · cases found
    assumption
  · cases found

theorem quotedLength?_of_rune (found : runeContent rest = (.token k, n)) :
    quotedLength? '\'' rest = some n := by
  cases closed : quotedLength? '\'' rest with
  | none =>
    rw [runeContent, quotedContent, closed] at found
    cases found
  | some m =>
    rw [runeContent_of_closed closed] at found
    split at found <;> cases found
    rfl

theorem rawLength?_of_raw (found : rawContent rest = (.token k, n)) :
    rawLength? '\x60' rest = some n := by
  rw [rawContent] at found
  split at found
  · cases found
    assumption
  · cases found

end Literals

section Closed

variable {shared x : List Char} {n : Nat} (inside : n ≤ shared.length)
include inside

theorem append_eq_take_append (x y : List Char) :
    shared ++ y = (shared ++ x).take n ++ (shared.drop n ++ y) := by
  rw [List.take_append_of_le_length inside, ← List.append_assoc, List.take_append_drop]

theorem quotedLength?_shared {quote : Char} (closed : quotedLength? quote (shared ++ x) = some n)
    (y : List Char) : quotedLength? quote (shared ++ y) = some n := by
  rw [append_eq_take_append inside x y]
  exact quotedLength?_take closed _

theorem rawLength?_shared {quote : Char} (closed : rawLength? quote (shared ++ x) = some n)
    (y : List Char) : rawLength? quote (shared ++ y) = some n := by
  rw [append_eq_take_append inside x y]
  exact rawLength?_take closed _

theorem blockLength?_shared (closed : blockLength? (shared ++ x) = some n) (y : List Char) :
    blockLength? (shared ++ y) = some n := by
  rw [append_eq_take_append inside x y]
  exact blockLength?_take closed _

theorem quotedContent_shared {quote : Char} {kind k : Kind} {unclosed : Fault}
    (found : quotedContent quote kind unclosed (shared ++ x) = (.token k, n)) (y : List Char) :
    quotedContent quote kind unclosed (shared ++ y) = (.token k, n) := by
  have closed := quotedLength?_of_quoted found
  rw [quotedContent, closed] at found
  rw [quotedContent, quotedLength?_shared inside closed y, found]

theorem runeContent_shared {k : Kind} (found : runeContent (shared ++ x) = (.token k, n))
    (y : List Char) : runeContent (shared ++ y) = (.token k, n) := by
  have closed := quotedLength?_of_rune found
  rw [runeContent_of_closed (quotedLength?_shared inside closed y), ← found,
    runeContent_of_closed closed]

theorem rawContent_shared {k : Kind} (found : rawContent (shared ++ x) = (.token k, n))
    (y : List Char) : rawContent (shared ++ y) = (.token k, n) := by
  have closed := rawLength?_of_raw found
  rw [rawContent, closed] at found
  rw [rawContent, rawLength?_shared inside closed y, found]

end Closed

/-- A token ends in the shared part of two texts. If the second text is at a break after that part,
the same token begins it. A first text that goes on with a point is asked for more, because a point
may keep an earlier point out of a number. -/
theorem contentAt_shared {shared x y : List Char} (stop : AtBreak y) {c : Char} {k : Kind} {n : Nat}
    (found : contentAt c (shared ++ x) = (.token k, n)) (inside : n ≤ shared.length)
    (point : x.head? = some '.' → n = shared.length) :
    contentAt c (shared ++ y) = (.token k, n) := by
  have same := leadOf_shared stop found inside
  rw [contentAt_eq_lead] at found
  rw [contentAt_eq_lead, same]
  cases lead : leadOf c (shared ++ x).head? with
  | skipped | line =>
    rw [lead] at found
    cases found
  | block =>
    rw [lead, Lead.content] at found
    exact absurd (congrArg Prod.fst found) (blockContent_ne_token _ k)
  | word =>
    rw [lead, Lead.content] at found
    rw [Lead.content, ← found]
    exact wordContent_shared stop (by rwa [found])
  | number =>
    rw [lead, Lead.content] at found
    rw [Lead.content, ← found]
    exact numberContent_shared stop (leadOf_number lead) (by rwa [found]) (by rwa [found])
  | string => exact quotedContent_shared inside (by rwa [lead] at found) y
  | raw => exact rawContent_shared inside (by rwa [lead] at found) y
  | rune => exact runeContent_shared inside (by rwa [lead] at found) y
  | operator =>
    rw [lead, Lead.content] at found
    rw [Lead.content, ← found]
    exact operatorContent_shared stop (by rwa [found])

end LexicalReport.Scan
