import LexicalReport.Scan.Walk
import Mathlib.Data.List.TakeWhile
import Mathlib.Tactic.Basic

/-! The pieces that segments are made of: how long words, numbers, operators and quoted texts are,
and what decides it. No segment reaches past the end of the text. -/

namespace LexicalReport.Scan

open Token (Kind)
open Cursor (isSign)

theorem take_length_takeWhile (p : Char → Bool) (cs : List Char) :
    cs.take (cs.takeWhile p).length = cs.takeWhile p :=
  (List.prefix_iff_eq_take.mp (List.takeWhile_prefix p)).symm

theorem length_takeWhile_le (p : Char → Bool) (cs : List Char) :
    (cs.takeWhile p).length ≤ cs.length :=
  (List.takeWhile_prefix p).length_le

theorem isSkipped_iff {c : Char} :
    isSkipped c = true ↔ c ∈ [' ', '\t', '\r', '\n', '\uFEFF'] := by
  simp [isSkipped, or_assoc]

/-- A closed quoted text and its length: the quote itself, or an escape or another character in
front of such a text. -/
inductive Closes (quote : Char) : List Char → Nat → Prop
  | close {rest : List Char} (line : quote ≠ '\n') (slash : quote ≠ '\\') :
      Closes quote (quote :: rest) 1
  | escape {d : Char} {more : List Char} {n : Nat} (line : d ≠ '\n') (later : Closes quote more n) :
      Closes quote ('\\' :: d :: more) (n + 2)
  | other {c : Char} {rest : List Char} {n : Nat} (line : c ≠ '\n') (slash : c ≠ '\\')
      (apart : c ≠ quote) (later : Closes quote rest n) : Closes quote (c :: rest) (n + 1)

theorem closes_of_quotedLength? {quote : Char} {cs : List Char} {n : Nat}
    (closed : quotedLength? quote cs = some n) : Closes quote cs n := by
  fun_induction quotedLength? quote cs generalizing n with
  | case1 | case2 | case3 | case4 => cases closed
  | case5 d more line _ ih =>
    obtain ⟨m, found, rfl⟩ := Option.map_eq_some_iff.mp closed
    exact .escape line (ih found)
  | case6 rest line slash =>
    cases closed
    exact .close line slash
  | case7 c rest line slash apart ih =>
    obtain ⟨m, found, rfl⟩ := Option.map_eq_some_iff.mp closed
    exact .other line slash apart (ih found)

theorem quotedLength?_bounds {quote : Char} {cs : List Char} {n : Nat}
    (closed : quotedLength? quote cs = some n) : 0 < n ∧ n ≤ cs.length := by
  replace closed := closes_of_quotedLength? closed
  induction closed with
  | close => simp
  | escape _ _ bound | other _ _ _ _ bound =>
    simp only [List.length_cons]
    omega

theorem rawLength?_bounds {quote : Char} {cs : List Char} {n : Nat}
    (closed : rawLength? quote cs = some n) : 0 < n ∧ n ≤ cs.length := by
  obtain ⟨m, found, rfl⟩ := Option.map_eq_some_iff.mp closed
  obtain ⟨inside, -⟩ := List.findIdx?_eq_some_iff_getElem.mp found
  omega

theorem blockLength?_cons {c : Char} {cs : List Char} (opens : ¬ (c = '*' ∧ cs.head? = some '/')) :
    blockLength? (c :: cs) = (blockLength? cs).map (· + 1) := by
  rw [blockLength?]
  rintro more rfl rfl
  exact opens ⟨rfl, rfl⟩

theorem blockLength?_bounds {cs : List Char} {n : Nat} (closed : blockLength? cs = some n) :
    2 ≤ n ∧ n ≤ cs.length := by
  fun_induction blockLength? cs generalizing n with
  | case1 =>
    cases closed
    simp
  | case2 c rest _ ih =>
    obtain ⟨m, found, rfl⟩ := Option.map_eq_some_iff.mp closed
    have bound := ih found
    simp only [List.length_cons]
    omega
  | case3 => simp at closed

theorem fractionLength_le (cs : List Char) : fractionLength cs ≤ cs.length := by
  unfold fractionLength
  split
  · have bound := length_takeWhile_le isDecimal ‹_›
    simp only [decimalLength, List.length_cons]
    split <;> omega
  · exact Nat.zero_le _

theorem exponentLength_le (cs : List Char) : exponentLength cs ≤ cs.length := by
  unfold exponentLength
  split
  · exact Nat.zero_le _
  · rename_i mark rest
    have plain := length_takeWhile_le isDecimal rest
    have signed := length_takeWhile_le isDecimal (rest.drop 1)
    simp only [List.length_drop] at signed
    simp only [decimalLength, List.length_cons]
    split
    · omega
    · split
      · omega
      · split
        · have sign : 0 < rest.length := by
            cases rest with
            | nil => simp at *
            | cons => exact Nat.succ_pos _
          omega
        · omega

theorem plainNumeral_length_le (cs : List Char) : (plainNumeral cs).length ≤ cs.length := by
  have whole := length_takeWhile_le isDecimal cs
  have fraction := fractionLength_le (cs.drop (cs.takeWhile isDecimal).length)
  have exponent := exponentLength_le (cs.drop ((cs.takeWhile isDecimal).length +
    fractionLength (cs.drop (cs.takeWhile isDecimal).length)))
  simp only [List.length_drop] at fraction exponent
  simp only [plainNumeral]
  omega

theorem radixNumeral_length_le (isDigit : Char → Bool) (cs : List Char) :
    (radixNumeral isDigit cs).length ≤ cs.length + 2 := by
  have bound := length_takeWhile_le (fun c => c == '_' || isDigit c) cs
  simp only [radixNumeral]
  omega

def radixOf? (cs : List Char) : Option (Char → Bool) :=
  if cs.head? = some '0' then cs[1]?.bind radixDigit? else none

theorem numeral_eq (cs : List Char) : numeral cs =
    match radixOf? cs with
    | some isDigit => radixNumeral isDigit (cs.drop 2)
    | none => plainNumeral cs := by
  unfold numeral
  split
  · rename_i letter rest
    have same : radixOf? ('0' :: letter :: rest) = radixDigit? letter := by simp [radixOf?]
    rw [same]
    rfl
  · rename_i other
    have same : radixOf? cs = none := by
      rcases cs with _ | ⟨zero, _ | ⟨letter, rest⟩⟩
      · rfl
      · simp [radixOf?]
      · refine if_neg fun found => ?_
        cases found
        exact other letter rest rfl
    rw [same]

theorem radixOf?_eq_some {cs : List Char} {isDigit : Char → Bool}
    (found : radixOf? cs = some isDigit) : ∃ letter rest, cs = '0' :: letter :: rest := by
  rw [radixOf?] at found
  split at found
  · rcases cs with _ | ⟨zero, _ | ⟨letter, rest⟩⟩ <;> simp_all
  · cases found

theorem numeral_length_le (cs : List Char) : (numeral cs).length ≤ cs.length := by
  rw [numeral_eq]
  split
  · rename_i isDigit found
    obtain ⟨letter, rest, rfl⟩ := radixOf?_eq_some found
    exact radixNumeral_length_le isDigit rest
  · exact plainNumeral_length_le cs

theorem isDecimal_of_isDigit {c : Char} (digit : c.isDigit = true) : isDecimal c = true := by
  rw [isDecimal, digit, Bool.or_true]

theorem headIsDigit_iff {cs : List Char} :
    headIsDigit cs = true ↔ ∃ d rest, cs = d :: rest ∧ d.isDigit = true := by
  cases cs <;> simp [headIsDigit]

theorem beginsNumber_iff {c : Char} {rest : List Char} : beginsNumber (c :: rest) = true ↔
    c.isDigit = true ∨ c = '.' ∧ headIsDigit rest = true := by
  unfold beginsNumber
  split
  · rename_i more same
    cases same
    simp
  · rename_i other
    have different : c ≠ '.' := by
      rintro rfl
      exact other rest rfl
    simp [different, headIsDigit]

theorem decimalLength_pos {cs : List Char} (digit : headIsDigit cs = true) :
    0 < decimalLength cs := by
  obtain ⟨d, rest, rfl, digit⟩ := headIsDigit_iff.mp digit
  rw [decimalLength, List.takeWhile_cons_of_pos (isDecimal_of_isDigit digit)]
  exact Nat.succ_pos _

theorem fractionLength_of_digit {rest : List Char} (digit : headIsDigit rest = true) :
    fractionLength ('.' :: rest) = 1 + decimalLength rest := by
  obtain ⟨d, more, rfl, first⟩ := headIsDigit_iff.mp digit
  refine if_neg fun second => ?_
  cases second
  exact absurd first (by decide)

def isExponentMark (c : Char) : Bool :=
  c == 'e' || c == 'E'

def powerLength (cs : List Char) : Nat :=
  if headIsDigit cs then decimalLength cs
  else if cs.head?.any isSign && headIsDigit cs.tail then 1 + decimalLength cs.tail
  else 0

theorem powerLength_pos_iff {cs : List Char} : 0 < powerLength cs ↔
    headIsDigit cs = true ∨ cs.head?.any isSign = true ∧ headIsDigit cs.tail = true := by
  unfold powerLength
  split_ifs with digit signed
  · exact iff_of_true (decimalLength_pos digit) (.inl digit)
  · rw [Bool.and_eq_true] at signed
    exact iff_of_true (by omega) (.inr signed)
  · rw [Bool.and_eq_true] at signed
    exact iff_of_false (Nat.lt_irrefl 0) (not_or.mpr ⟨digit, signed⟩)

theorem isSign_of_isDigit {c : Char} (digit : c.isDigit = true) : isSign c = false := by
  rw [isSign, Bool.or_eq_false_iff, beq_eq_false_iff_ne, beq_eq_false_iff_ne]
  constructor <;>
    · rintro rfl
      exact absurd digit (by decide)

theorem powerLength_of_sign {cs : List Char} (sign : cs.head?.any isSign = true)
    (power : 0 < powerLength cs) : powerLength cs = 1 + decimalLength cs.tail := by
  have other : ¬ headIsDigit cs = true := by
    intro digit
    obtain ⟨d, rest, rfl, first⟩ := headIsDigit_iff.mp digit
    exact absurd sign (by simp [isSign_of_isDigit first])
  obtain digit | signed := powerLength_pos_iff.mp power
  · exact absurd digit other
  · rw [powerLength, if_neg other, if_pos (by rw [Bool.and_eq_true]; exact signed)]

theorem powerLength_of_no_sign {cs : List Char} (sign : ¬ cs.head?.any isSign = true)
    (power : 0 < powerLength cs) : powerLength cs = decimalLength cs := by
  obtain digit | signed := powerLength_pos_iff.mp power
  · rw [powerLength, if_pos digit]
  · exact absurd signed.1 sign

theorem exponentLength_cons (mark : Char) (cs : List Char) : exponentLength (mark :: cs) =
    if isExponentMark mark = true ∧ 0 < powerLength cs then 1 + powerLength cs else 0 := by
  have refused : (mark != 'e' && mark != 'E') = !isExponentMark mark := by
    rw [isExponentMark, Bool.not_or, bne, bne]
  have sign : (cs.head?.any fun c => c == '+' || c == '-') = cs.head?.any isSign := rfl
  rw [exponentLength, refused, sign, List.drop_one]
  by_cases letter : isExponentMark mark = true
  · simp only [letter, powerLength]
    by_cases digit : headIsDigit cs = true
    · simp [digit, decimalLength_pos digit]
    · by_cases signed : cs.head?.any isSign = true ∧ headIsDigit cs.tail = true
      · simp [digit, signed, ← Nat.add_assoc]
      · simp [digit, signed]
  · simp [letter]

/-- A point that opens a number takes a digit with it, so the number has a fraction. -/
theorem plainNumeral_point {rest : List Char} (digit : headIsDigit rest = true) :
    (plainNumeral ('.' :: rest)).kind = some .floatLiteral ∧
      2 ≤ (plainNumeral ('.' :: rest)).length := by
  have fraction := fractionLength_of_digit digit
  have digits := decimalLength_pos digit
  have whole : ('.' :: rest).takeWhile isDecimal = [] :=
    List.takeWhile_cons_of_neg (by decide)
  simp only [plainNumeral, whole, List.length_nil, List.drop_zero]
  exact ⟨if_pos (by omega), by omega⟩

theorem plainNumeral_length_pos {cs : List Char} (number : beginsNumber cs = true) :
    0 < (plainNumeral cs).length := by
  unfold beginsNumber at number
  split at number
  · exact Nat.lt_of_lt_of_le (by decide) (plainNumeral_point number).2
  · have whole := decimalLength_pos number
    rw [decimalLength] at whole
    simp only [plainNumeral]
    omega

theorem numeral_length_pos {cs : List Char} (number : beginsNumber cs = true) :
    0 < (numeral cs).length := by
  rw [numeral_eq]
  split
  · simp only [radixNumeral]
    omega
  · exact plainNumeral_length_pos number

theorem operators_nonempty : ∀ entry ∈ operators, 0 < entry.1.length := by
  decide

theorem operatorAt_eq_some {cs : List Char} {kind : Kind} {n : Nat}
    (found : operatorAt cs = some (kind, n)) :
    ∃ spelling, (spelling, kind) ∈ operators ∧ spelling <+: cs ∧ spelling.length = n := by
  obtain ⟨entry, first, same⟩ := Option.map_eq_some_iff.mp found
  cases same
  have spelled := List.find?_some first
  exact ⟨entry.1, List.mem_of_find?_eq_some first, List.isPrefixOf_iff_prefix.mp spelled, rfl⟩

theorem operatorAt_bounds {cs : List Char} {kind : Kind} {n : Nat}
    (found : operatorAt cs = some (kind, n)) : 0 < n ∧ n ≤ cs.length := by
  obtain ⟨spelling, entry, spelled, rfl⟩ := operatorAt_eq_some found
  exact ⟨operators_nonempty _ entry, spelled.length_le⟩

theorem lineLength_cons {c : Char} (other : c ≠ '\n') (cs : List Char) :
    lineLength (c :: cs) = lineLength cs + 1 := by
  rw [lineLength, List.takeWhile_cons_of_pos (by simpa using other)]
  rfl

theorem lineLength_le (cs : List Char) : lineLength cs ≤ cs.length :=
  length_takeWhile_le _ cs

theorem quotedContent_le (quote : Char) (kind : Kind) (unclosed : Fault) (rest : List Char) :
    (quotedContent quote kind unclosed rest).2 ≤ rest.length := by
  unfold quotedContent
  split
  · exact (quotedLength?_bounds ‹_›).2
  · exact lineLength_le rest

theorem runeContent_of_closed {rest : List Char} {n : Nat}
    (closed : quotedLength? '\'' rest = some n) :
    runeContent rest =
      if n = 1 then (.fault .emptyRune, n) else (.token .runeLiteral, n) := by
  rw [runeContent, quotedContent, closed]
  split
  · rename_i same
    cases same
    rfl
  · rename_i other
    rw [if_neg]
    rintro rfl
    exact other _ rfl

theorem runeContent_le (rest : List Char) : (runeContent rest).2 ≤ rest.length := by
  have bound := quotedContent_le '\'' .runeLiteral .unterminatedRune rest
  unfold runeContent
  split
  · rename_i found
    rwa [found] at bound
  · exact bound

theorem rawContent_le (rest : List Char) : (rawContent rest).2 ≤ rest.length := by
  unfold rawContent
  split
  · exact (rawLength?_bounds ‹_›).2
  · exact Nat.le_refl _

theorem blockContent_le {rest : List Char} (star : rest.head? = some '*') :
    (blockContent rest).2 ≤ rest.length := by
  obtain ⟨more, rfl⟩ := List.head?_eq_some_iff.mp star
  unfold blockContent
  split
  · have bound := blockLength?_bounds ‹_›
    simpa using bound.2
  · exact Nat.le_refl _

theorem numberContent_snd (c : Char) (rest : List Char) :
    (numberContent c rest).2 = (numeral (c :: rest)).length - 1 := by
  simp only [numberContent]
  split <;> rfl

theorem numberContent_le (c : Char) (rest : List Char) :
    (numberContent c rest).2 ≤ rest.length := by
  have bound := numeral_length_le (c :: rest)
  rw [List.length_cons] at bound
  rw [numberContent_snd]
  omega

theorem wordContent_le (c : Char) (rest : List Char) : (wordContent c rest).2 ≤ rest.length :=
  length_takeWhile_le isWordPart rest

theorem operatorContent_le (c : Char) (rest : List Char) :
    (operatorContent c rest).2 ≤ rest.length := by
  unfold operatorContent
  split
  · have bound := operatorAt_bounds ‹_›
    rw [List.length_cons] at bound
    simp only
    omega
  · exact Nat.zero_le _

theorem contentAt_le (c : Char) (rest : List Char) : (contentAt c rest).2 ≤ rest.length := by
  unfold contentAt
  split_ifs with _ _ block
  · exact Nat.zero_le _
  · exact lineLength_le rest
  · exact blockContent_le block.2
  · exact wordContent_le c rest
  · exact numberContent_le c rest
  · exact quotedContent_le _ _ _ rest
  · exact rawContent_le rest
  · exact runeContent_le rest
  · exact operatorContent_le c rest

theorem contentAt_of_isSkipped {c : Char} (skipped : isSkipped c = true) (rest : List Char) :
    contentAt c rest = (.skipped, 0) :=
  if_pos skipped

theorem segments_nil : segments [] = [] := by
  rw [segments]

theorem segments_of_content {c : Char} {text rest : List Char} {content : Content}
    (found : contentAt c (text ++ rest) = (content, text.length)) :
    segments (c :: (text ++ rest)) = ⟨content, c :: text⟩ :: segments rest := by
  rw [segments, found]
  simp only [List.take_left, List.drop_left]

theorem segments_of_isSkipped {c : Char} (skipped : isSkipped c = true) (rest : List Char) :
    segments (c :: rest) = ⟨.skipped, [c]⟩ :: segments rest :=
  @segments_of_content c [] rest _ (contentAt_of_isSkipped skipped rest)

end LexicalReport.Scan
