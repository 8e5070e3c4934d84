import LexicalReport.Proofs.Scan.Lead
import LexicalReport.Proofs.Scan.Walk
import LexicalReport.Proofs.Text.Languages
import Mathlib.Tactic.IntervalCases

/-! Numbers. The text of a number is the longest text of a grammar that begins the text ahead, those
apart that would end between two points. What is noted for a number, its text alone decides. -/

namespace LexicalReport.Scan

open Token (Kind)
open Cursor (isSign)
open Text (oneOf mem_oneOf_mul cons_mem_oneOf_mul mem_oneOf_kstar mem_one_add)
open scoped Computability

namespace Number

def digit : Language Char :=
  oneOf (fun c => c.isDigit = true)

def part : Language Char :=
  oneOf (fun c => c = '_' ∨ c.isDigit = true)

def point : Language Char :=
  oneOf (fun c => c = '.')

def sign : Language Char :=
  oneOf (fun c => c = '+' ∨ c = '-')

def exponent : Language Char :=
  oneOf (fun c => c = 'e' ∨ c = 'E') * ((1 + sign) * (digit * part∗))

/-- The numbers with a radix letter, whether or not digits follow it. -/
def radix (letters : List Char) (isDigit : Char → Prop) : Language Char :=
  oneOf (fun c => c = '0') *
    (oneOf (fun c => c ∈ letters) * (oneOf (fun c => c = '_' ∨ isDigit c))∗)

def based : Language Char :=
  radix ['x', 'X'] (fun c => c.isDigit = true ∨ 'a' ≤ c ∧ c ≤ 'f' ∨ 'A' ≤ c ∧ c ≤ 'F') +
    radix ['o', 'O'] (fun c => '0' ≤ c ∧ c ≤ '7') +
    radix ['b', 'B'] (fun c => c = '0' ∨ c = '1')

def plain : Language Char :=
  digit * part∗ + digit * part∗ * exponent + digit * part∗ * point * part∗ * (1 + exponent) +
    point * digit * part∗ * (1 + exponent)

def grammar : Language Char :=
  based + plain

/-- A beginning of a text that ends in a point and has another point after it. -/
def PartsPoints (cs w : List Char) : Prop :=
  w.getLast? = some '.' ∧ cs[w.length]? = some '.'

/-- The longest number that begins a text without parting two points. -/
structure Longest (cs w : List Char) : Prop where
  spelled : w ∈ grammar
  begins : w <+: cs
  whole : ¬ PartsPoints cs w
  longest : ∀ v ∈ grammar, v <+: cs → ¬ PartsPoints cs v → v.length ≤ w.length

def hasRadix (w : List Char) : Bool :=
  w.head? == some '0' && (w[1]?).any (fun c => c ∈ ['x', 'X', 'o', 'O', 'b', 'B'])

def contentOf (w : List Char) : Content :=
  let malformed := Content.fault (.malformedNumber (String.ofList w))
  if hasRadix w then
    if (w.drop 2).any (· != '_') then .token .intLiteral else malformed
  else if '.' ∈ w ∨ 'e' ∈ w ∨ 'E' ∈ w then .token .floatLiteral
  else if w.head? = some '0' ∧ ('8' ∈ w ∨ '9' ∈ w) then malformed
  else .token .intLiteral

end Number

open Number

section Classes

variable {p : Char → Bool} {u cs : List Char}

theorem length_le_takeWhile (all : ∀ c ∈ u, p c = true) (begins : u <+: cs) :
    u.length ≤ (cs.takeWhile p).length := by
  obtain ⟨rest, rfl⟩ := begins
  rw [List.takeWhile_append_of_pos all, List.length_append]
  exact Nat.le_add_right _ _

theorem takeWhile_append_stop (all : ∀ c ∈ u, p c = true) {d : Char} (stops : ¬ p d = true)
    (rest : List Char) : (u ++ d :: rest).takeWhile p = u := by
  rw [List.takeWhile_append_of_pos all, List.takeWhile_cons_of_neg stops, List.append_nil]

end Classes

theorem isDecimal_iff {c : Char} : isDecimal c = true ↔ c = '_' ∨ c.isDigit = true := by
  simp [isDecimal]

theorem mem_part_kstar {w : List Char} : w ∈ part∗ ↔ ∀ c ∈ w, isDecimal c = true := by
  rw [part, mem_oneOf_kstar]
  simp only [isDecimal_iff]

theorem mem_digits {w : List Char} : w ∈ digit * part∗ ↔
    headIsDigit w = true ∧ ∀ c ∈ w, isDecimal c = true := by
  rw [digit, mem_oneOf_mul]
  constructor
  · rintro ⟨d, rest, rfl, first, more⟩
    refine ⟨first, List.forall_mem_cons.mpr ⟨isDecimal_of_isDigit first, mem_part_kstar.mp more⟩⟩
  · rintro ⟨first, all⟩
    obtain ⟨d, rest, rfl, digit⟩ := headIsDigit_iff.mp first
    exact ⟨d, rest, rfl, digit, mem_part_kstar.mpr (List.forall_mem_cons.mp all).2⟩

theorem takeWhile_mem_digits {cs : List Char} (first : headIsDigit cs = true) :
    cs.takeWhile isDecimal ∈ digit * part∗ := by
  obtain ⟨d, rest, rfl, digit⟩ := headIsDigit_iff.mp first
  refine mem_digits.mpr ⟨?_, fun c inside => List.mem_takeWhile_imp inside⟩
  rw [List.takeWhile_cons_of_pos (isDecimal_of_isDigit digit)]
  exact digit

/-! Exponents. -/

theorem isExponentMark_iff {c : Char} : isExponentMark c = true ↔ c = 'e' ∨ c = 'E' := by
  simp [isExponentMark]

theorem isSign_iff {c : Char} : isSign c = true ↔ c = '+' ∨ c = '-' := by
  simp [isSign]

theorem mem_power {w : List Char} : w ∈ (1 + sign) * (digit * part∗) ↔
    w ∈ digit * part∗ ∨ ∃ c rest, w = c :: rest ∧ isSign c = true ∧ rest ∈ digit * part∗ := by
  rw [add_mul, one_mul, Language.mem_add, sign, mem_oneOf_mul]
  simp only [isSign_iff]

theorem mem_exponent {w : List Char} : w ∈ exponent ↔ ∃ mark rest, w = mark :: rest ∧
    isExponentMark mark = true ∧ rest ∈ (1 + sign) * (digit * part∗) := by
  rw [exponent, mem_oneOf_mul]
  simp only [isExponentMark_iff]

theorem length_le_powerLength {w cs : List Char} (power : w ∈ (1 + sign) * (digit * part∗))
    (begins : w <+: cs) : 0 < powerLength cs ∧ w.length ≤ powerLength cs := by
  obtain digits | ⟨c, rest, rfl, signed, digits⟩ := mem_power.mp power
  · obtain ⟨first, all⟩ := mem_digits.mp digits
    have here : headIsDigit cs = true := by
      obtain ⟨d, rest, rfl, digit⟩ := headIsDigit_iff.mp first
      obtain ⟨more, rfl⟩ := begins
      exact digit
    rw [powerLength, if_pos here]
    exact ⟨decimalLength_pos here, length_le_takeWhile all begins⟩
  · obtain ⟨first, all⟩ := mem_digits.mp digits
    obtain ⟨d, more, rfl, digit⟩ := headIsDigit_iff.mp first
    obtain ⟨last, rfl⟩ := begins
    have begins : d :: more <+: d :: (more ++ last) := ⟨last, rfl⟩
    have marked : (c :: d :: (more ++ last)).head?.any isSign = true := signed
    have power : 0 < powerLength (c :: d :: (more ++ last)) :=
      powerLength_pos_iff.mpr (.inr ⟨marked, digit⟩)
    have length := length_le_takeWhile all begins
    rw [List.cons_append, List.cons_append]
    refine ⟨power, ?_⟩
    rw [powerLength_of_sign marked power, List.tail_cons, decimalLength, List.length_cons]
    omega

theorem take_powerLength {cs : List Char} (power : 0 < powerLength cs) :
    cs.take (powerLength cs) ∈ (1 + sign) * (digit * part∗) := by
  rw [mem_power]
  by_cases signed : cs.head?.any isSign = true
  · obtain digit | ⟨-, digit⟩ := powerLength_pos_iff.mp power
    · obtain ⟨d, rest, rfl, digit⟩ := headIsDigit_iff.mp digit
      exact absurd signed (by simp [isSign_of_isDigit digit])
    · cases cs with
      | nil => cases signed
      | cons c rest =>
        rw [powerLength_of_sign signed power, Nat.add_comm, List.take_succ_cons, List.tail_cons,
          decimalLength, take_length_takeWhile]
        exact .inr ⟨c, _, rfl, signed, takeWhile_mem_digits digit⟩
  · obtain digit | both := powerLength_pos_iff.mp power
    · rw [powerLength_of_no_sign signed power, decimalLength, take_length_takeWhile]
      exact .inl (takeWhile_mem_digits digit)
    · exact absurd both.1 signed

theorem length_le_exponentLength {w cs : List Char} (spelled : w ∈ exponent)
    (begins : w <+: cs) : w.length ≤ exponentLength cs := by
  obtain ⟨mark, rest, rfl, letter, power⟩ := mem_exponent.mp spelled
  obtain ⟨more, rfl⟩ := begins
  have begins : rest <+: rest ++ more := ⟨more, rfl⟩
  obtain ⟨filled, length⟩ := length_le_powerLength power begins
  rw [List.cons_append, exponentLength_cons, if_pos ⟨letter, filled⟩, List.length_cons]
  omega

theorem take_exponentLength (cs : List Char) : cs.take (exponentLength cs) ∈ 1 + exponent := by
  rw [mem_one_add]
  cases cs with
  | nil => exact .inl rfl
  | cons mark rest =>
    rw [exponentLength_cons]
    split_ifs with opens
    · rw [Nat.add_comm, List.take_succ_cons]
      exact .inr (mem_exponent.mpr ⟨mark, _, rfl, opens.1, take_powerLength opens.2⟩)
    · exact .inl rfl

theorem not_point_of_mem_exponent {w : List Char} (spelled : w ∈ exponent) : '.' ∉ w := by
  obtain ⟨mark, rest, rfl, letter, power⟩ := mem_exponent.mp spelled
  have digits {v : List Char} (all : v ∈ digit * part∗) : '.' ∉ v :=
    fun inside => absurd ((mem_digits.mp all).2 _ inside) (by decide)
  have other : '.' ≠ mark := by
    rintro rfl
    cases letter
  rw [List.mem_cons, not_or]
  refine ⟨other, ?_⟩
  obtain all | ⟨c, more, rfl, signed, all⟩ := mem_power.mp power
  · exact digits all
  · have unlike : '.' ≠ c := by
      rintro rfl
      cases signed
    rw [List.mem_cons, not_or]
    exact ⟨unlike, digits all⟩

/-! Numbers without a radix letter, as a whole part, a fraction and an exponent. -/

structure Cut (whole fraction power : List Char) : Prop where
  whole : ∀ c ∈ whole, isDecimal c = true
  fraction : fraction = [] ∨ ∃ ds, fraction = '.' :: ds ∧ ∀ c ∈ ds, isDecimal c = true
  power : power = [] ∨ power ∈ exponent

theorem exists_cut {w : List Char} (spelled : w ∈ plain) :
    ∃ whole fraction power, w = whole ++ (fraction ++ power) ∧ Cut whole fraction power := by
  simp only [plain, mul_assoc, Language.mem_add] at spelled
  obtain ((digits | scaled) | pointed) | led := spelled
  · exact ⟨w, [], [], by simp, (mem_digits.mp digits).2, .inl rfl, .inl rfl⟩
  · rw [← mul_assoc] at scaled
    obtain ⟨whole, digits, power, raised, rfl⟩ := Language.mem_mul.mp scaled
    exact ⟨whole, [], power, rfl, (mem_digits.mp digits).2, .inl rfl, .inr raised⟩
  · rw [← mul_assoc] at pointed
    obtain ⟨whole, digits, _, rest, rfl⟩ := Language.mem_mul.mp pointed
    obtain ⟨_, _, rfl, rfl, more⟩ := mem_oneOf_mul.mp rest
    obtain ⟨ds, parts, power, raised, rfl⟩ := Language.mem_mul.mp more
    exact ⟨whole, '.' :: ds, power, rfl, (mem_digits.mp digits).2,
      .inr ⟨ds, rfl, mem_part_kstar.mp parts⟩, mem_one_add.mp raised⟩
  · obtain ⟨_, _, rfl, rfl, rest⟩ := mem_oneOf_mul.mp led
    rw [← mul_assoc] at rest
    obtain ⟨ds, digits, power, raised, rfl⟩ := Language.mem_mul.mp rest
    exact ⟨[], '.' :: ds, power, rfl, by simp, .inr ⟨ds, rfl, (mem_digits.mp digits).2⟩,
      mem_one_add.mp raised⟩

theorem plain_of_digits {whole power : List Char} (digits : whole ∈ digit * part∗)
    (raised : power ∈ 1 + exponent) : whole ++ power ∈ plain := by
  simp only [plain, Language.mem_add]
  obtain rfl | raised := mem_one_add.mp raised
  · rw [List.append_nil]
    exact .inl (.inl (.inl digits))
  · exact .inl (.inl (.inr (Language.append_mem_mul digits raised)))

theorem plain_of_point {whole ds power : List Char} (digits : whole ∈ digit * part∗)
    (parts : ∀ c ∈ ds, isDecimal c = true) (raised : power ∈ 1 + exponent) :
    whole ++ ('.' :: (ds ++ power)) ∈ plain := by
  have fraction : '.' :: (ds ++ power) ∈ point * (part∗ * (1 + exponent)) :=
    cons_mem_oneOf_mul.mpr ⟨rfl, Language.append_mem_mul (mem_part_kstar.mpr parts) raised⟩
  have all := Language.append_mem_mul digits fraction
  simp only [plain, Language.mem_add]
  exact .inl (.inr (by simpa only [mul_assoc] using all))

theorem plain_of_lead {ds power : List Char} (digits : ds ∈ digit * part∗)
    (raised : power ∈ 1 + exponent) : '.' :: (ds ++ power) ∈ plain := by
  have all : '.' :: (ds ++ power) ∈ point * (digit * part∗ * (1 + exponent)) :=
    cons_mem_oneOf_mul.mpr ⟨rfl, Language.append_mem_mul digits raised⟩
  simp only [plain, Language.mem_add]
  exact .inr (by simpa only [mul_assoc] using all)

theorem headIsDigit_of_append_power {ds power : List Char} (raised : power ∈ 1 + exponent)
    (first : headIsDigit (ds ++ power) = true) : headIsDigit ds = true := by
  cases ds with
  | cons d ds => exact first
  | nil =>
    obtain rfl | spelled := mem_one_add.mp raised
    · exact first
    · obtain ⟨mark, rest, rfl, letter, -⟩ := mem_exponent.mp spelled
      obtain rfl | rfl := isExponentMark_iff.mp letter <;> cases first

theorem Cut.mem_plain {whole fraction power : List Char} (cut : Cut whole fraction power)
    (begins : beginsNumber (whole ++ (fraction ++ power)) = true) :
    whole ++ (fraction ++ power) ∈ plain := by
  obtain ⟨parts, fractional, raised⟩ := cut
  rw [← mem_one_add] at raised
  obtain _ | ⟨c, us⟩ := whole
  · obtain rfl | ⟨ds, rfl, all⟩ := fractional
    · obtain rfl | spelled := mem_one_add.mp raised
      · cases begins
      · obtain ⟨mark, rest, rfl, letter, -⟩ := mem_exponent.mp spelled
        obtain rfl | rfl := isExponentMark_iff.mp letter <;> cases begins
    · have first := headIsDigit_of_append_power raised begins
      exact plain_of_lead (mem_digits.mpr ⟨first, all⟩) raised
  · have first : c.isDigit = true := by
      obtain digit | ⟨rfl, -⟩ := beginsNumber_iff.mp begins
      · exact digit
      · exact absurd (parts '.' List.mem_cons_self) (by decide)
    have digits : c :: us ∈ digit * part∗ := mem_digits.mpr ⟨first, parts⟩
    obtain rfl | ⟨ds, rfl, all⟩ := fractional
    · exact plain_of_digits digits raised
    · exact plain_of_point digits all raised

theorem Cut.of_getLast? {whole fraction power : List Char} (cut : Cut whole fraction power)
    (last : (whole ++ (fraction ++ power)).getLast? = some '.') :
    fraction = ['.'] ∧ power = [] := by
  have unlike {ds : List Char} (all : ∀ c ∈ ds, isDecimal c = true) : ds.getLast? ≠ some '.' :=
    fun found => absurd (all _ (List.mem_of_getLast? found)) (by decide)
  obtain ⟨parts, fractional, rfl | spelled⟩ := cut
  · obtain rfl | ⟨_ | ⟨d, ds⟩, rfl, all⟩ := fractional
    · rw [List.append_nil, List.append_nil] at last
      exact absurd last (unlike parts)
    · exact ⟨rfl, rfl⟩
    · rw [List.append_nil, List.getLast?_append_of_ne_nil _ (List.cons_ne_nil _ _),
        List.getLast?_cons_cons] at last
      exact absurd last (unlike all)
  · have filled : power ≠ [] := by
      obtain ⟨mark, rest, rfl, -⟩ := mem_exponent.mp spelled
      exact List.cons_ne_nil _ _
    rw [← List.append_assoc, List.getLast?_append_of_ne_nil _ filled] at last
    exact absurd (List.mem_of_getLast? last) (not_point_of_mem_exponent spelled)

theorem exists_mark_of_mem_exponent {power : List Char} (spelled : power ∈ exponent) :
    ∃ mark rest, power = mark :: rest ∧ ¬ isDecimal mark = true ∧ mark ≠ '.' := by
  obtain ⟨mark, rest, rfl, letter, -⟩ := mem_exponent.mp spelled
  refine ⟨mark, rest, rfl, ?_⟩
  obtain rfl | rfl := isExponentMark_iff.mp letter <;> decide

theorem Cut.opens_fraction {whole ds power more : List Char}
    (cut : Cut whole ('.' :: ds) power) (apart : ds = [] → power = [] → more.head? ≠ some '.') :
    (ds ++ (power ++ more)).head? ≠ some '.' := by
  obtain ⟨-, fractional, raised⟩ := cut
  cases ds with
  | cons d ds =>
    obtain none | ⟨_, same, all⟩ := fractional
    · cases none
    · cases same
      rintro found
      cases found
      exact absurd (all '.' List.mem_cons_self) (by decide)
  | nil =>
    obtain rfl | spelled := raised
    · exact apart rfl rfl
    · obtain ⟨mark, rest, rfl, -, other⟩ := exists_mark_of_mem_exponent spelled
      exact fun found => other (Option.some.inj found)

/-- A fraction and an exponent that stand in front of a text are no longer than those found. -/
theorem Cut.tail_length_le {whole fraction power more : List Char}
    (cut : Cut whole fraction power)
    (apart : fraction = ['.'] → power = [] → more.head? ≠ some '.') :
    (fraction ++ power).length ≤ fractionLength (fraction ++ (power ++ more)) +
      exponentLength ((fraction ++ (power ++ more)).drop
        (fractionLength (fraction ++ (power ++ more)))) := by
  have begins : power <+: power ++ more := ⟨more, rfl⟩
  obtain rfl | ⟨ds, rfl, all⟩ := cut.fraction
  · obtain rfl | spelled := cut.power
    · exact Nat.zero_le _
    · have length := length_le_exponentLength spelled begins
      have none : fractionLength (power ++ more) = 0 := by
        obtain ⟨mark, rest, rfl, -, other⟩ := exists_mark_of_mem_exponent spelled
        exact fractionLength_of_head?_ne (fun found => other (Option.some.inj found))
      simp only [List.nil_append, none, List.drop_zero, Nat.zero_add]
      exact length
  · have opens := cut.opens_fraction (fun none => apart (congrArg _ none))
    have found : fractionLength ('.' :: ds ++ (power ++ more)) =
        1 + decimalLength (ds ++ (power ++ more)) := if_neg opens
    obtain rfl | spelled := cut.power
    · have length := length_le_takeWhile all (List.prefix_append ds ([] ++ more))
      rw [found, decimalLength, List.append_nil, List.length_cons]
      omega
    · have length := length_le_exponentLength spelled begins
      have digits : decimalLength (ds ++ (power ++ more)) = ds.length := by
        obtain ⟨mark, rest, rfl, stops, -⟩ := exists_mark_of_mem_exponent spelled
        rw [decimalLength, List.cons_append, takeWhile_append_stop all stops]
      have beyond : ('.' :: ds ++ (power ++ more)).drop (1 + ds.length) = power ++ more := by
        rw [Nat.add_comm]
        exact List.drop_left
      rw [found, digits, beyond, List.length_append, List.length_cons]
      omega

theorem Cut.length_le {whole fraction power cs : List Char} (cut : Cut whole fraction power)
    (begins : whole ++ (fraction ++ power) <+: cs)
    (apart : ¬ PartsPoints cs (whole ++ (fraction ++ power))) :
    (whole ++ (fraction ++ power)).length ≤ (plainNumeral cs).length := by
  obtain ⟨more, rfl⟩ := begins
  have single : fraction = ['.'] → power = [] → more.head? ≠ some '.' := by
    rintro rfl rfl second
    refine apart ⟨by simp, ?_⟩
    rw [List.getElem?_append_right (Nat.le_refl _), Nat.sub_self, ← List.head?_eq_getElem?]
    exact second
  have tail := cut.tail_length_le single
  simp only [plainNumeral, List.append_assoc]
  by_cases ends : fraction ++ power = []
  · have length := length_le_takeWhile cut.whole
      (List.prefix_append whole (fraction ++ (power ++ more)))
    rw [ends, List.append_nil]
    omega
  · -- what follows the whole part cannot belong to it, so it is found as it stands
    have found : (whole ++ (fraction ++ (power ++ more))).takeWhile isDecimal = whole := by
      obtain ⟨d, rest, same, stops⟩ : ∃ d rest, fraction ++ power = d :: rest ∧
          ¬ isDecimal d = true := by
        obtain rfl | ⟨ds, rfl, -⟩ := cut.fraction
        · obtain rfl | spelled := cut.power
          · exact absurd rfl ends
          · obtain ⟨mark, rest, rfl, stops, -⟩ := exists_mark_of_mem_exponent spelled
            exact ⟨mark, rest, rfl, stops⟩
        · exact ⟨'.', ds ++ power, rfl, by decide⟩
      rw [← List.append_assoc fraction, same, List.cons_append]
      exact takeWhile_append_stop cut.whole stops _
    rw [found, List.drop_left, ← List.drop_drop, List.drop_left, List.length_append]
    omega

theorem take_fractionLength (cs : List Char) : cs.take (fractionLength cs) = [] ∨
    ∃ ds, cs.take (fractionLength cs) = '.' :: ds ∧ ∀ c ∈ ds, isDecimal c = true := by
  unfold fractionLength
  split
  · split_ifs
    · exact .inl rfl
    · rename_i rest _
      rw [Nat.add_comm, List.take_succ_cons, decimalLength, take_length_takeWhile]
      exact .inr ⟨_, rfl, fun c inside => List.mem_takeWhile_imp inside⟩
  · exact .inl rfl

theorem not_point_of_fraction {cs : List Char} (lone : cs.take (fractionLength cs) = ['.']) :
    cs[1]? ≠ some '.' := by
  cases cs with
  | nil => cases lone
  | cons c rest =>
    intro second
    rw [List.getElem?_cons_succ, ← List.head?_eq_getElem?] at second
    by_cases same : c = '.'
    · subst same
      rw [fractionLength, if_pos second] at lone
      cases lone
    · have other : (c :: rest).head? ≠ some '.' := fun found => same (Option.some.inj found)
      rw [fractionLength_of_head?_ne other] at lone
      cases lone

theorem plainNumeral_cut (cs : List Char) : ∃ fraction power,
    Cut (cs.takeWhile isDecimal) fraction power ∧
    cs.take (plainNumeral cs).length = cs.takeWhile isDecimal ++ (fraction ++ power) ∧
    (plainNumeral cs).kind =
      (if fraction ++ power ≠ [] then some .floatLiteral
      else if (cs.takeWhile isDecimal).head? = some '0' ∧
        (cs.takeWhile isDecimal).any (fun c => c == '8' || c == '9') then none
      else some .intLiteral) ∧
    (fraction = ['.'] → cs[(cs.takeWhile isDecimal).length + 1]? ≠ some '.') := by
  have digits : ∀ c ∈ cs.takeWhile isDecimal, isDecimal c = true :=
    fun c inside => List.mem_takeWhile_imp inside
  have text := take_length_takeWhile isDecimal cs
  simp only [plainNumeral]
  generalize cs.takeWhile isDecimal = whole at *
  have fractional := take_fractionLength (cs.drop whole.length)
  have lone := @not_point_of_fraction (cs.drop whole.length)
  have reach := fractionLength_le (cs.drop whole.length)
  generalize fractionLength (cs.drop whole.length) = f at *
  have raised := take_exponentLength (cs.drop (whole.length + f))
  have further := exponentLength_le (cs.drop (whole.length + f))
  generalize exponentLength (cs.drop (whole.length + f)) = e at *
  refine ⟨(cs.drop whole.length).take f, (cs.drop (whole.length + f)).take e,
    ⟨digits, fractional, mem_one_add.mp raised⟩, ?_, ?_, ?_⟩
  · rw [List.take_add, List.take_add, text, List.append_assoc]
  · have length : ((cs.drop whole.length).take f ++ (cs.drop (whole.length + f)).take e).length =
        f + e := by
      rw [List.length_append, List.length_take_of_le reach, List.length_take_of_le further]
    have filled : 0 < f + e ↔
        (cs.drop whole.length).take f ++ (cs.drop (whole.length + f)).take e ≠ [] := by
      rw [← length, List.length_pos_iff]
    simp only [filled]
  · intro single
    have next := lone single
    rwa [List.getElem?_drop] at next

/-! Numbers with a radix letter. -/

theorem mem_radix {letters : List Char} {p : Char → Prop} {w : List Char} :
    w ∈ radix letters p ↔
      ∃ letter ds, w = '0' :: letter :: ds ∧ letter ∈ letters ∧ ∀ c ∈ ds, c = '_' ∨ p c := by
  rw [radix, mem_oneOf_mul]
  constructor
  · rintro ⟨_, rest, rfl, rfl, more⟩
    obtain ⟨letter, ds, rfl, listed, all⟩ := mem_oneOf_mul.mp more
    exact ⟨letter, ds, rfl, listed, mem_oneOf_kstar.mp all⟩
  · rintro ⟨letter, ds, rfl, listed, all⟩
    exact ⟨'0', _, rfl, rfl, cons_mem_oneOf_mul.mpr ⟨listed, mem_oneOf_kstar.mpr all⟩⟩

theorem mem_based {w : List Char} : w ∈ based ↔ ∃ letter isDigit ds,
    radixDigit? letter = some isDigit ∧ w = '0' :: letter :: ds ∧
      ∀ c ∈ ds, (c == '_' || isDigit c) = true := by
  simp only [based, Language.mem_add, mem_radix]
  constructor
  · rintro ((⟨letter, ds, rfl, listed, all⟩ | ⟨letter, ds, rfl, listed, all⟩) |
      ⟨letter, ds, rfl, listed, all⟩)
    all_goals
      simp only [List.mem_cons, List.not_mem_nil, or_false] at listed
      obtain rfl | rfl := listed
      all_goals exact ⟨_, _, ds, rfl, rfl, by simpa [or_assoc] using all⟩
  · rintro ⟨letter, isDigit, ds, found, rfl, all⟩
    unfold radixDigit? at found
    split at found <;> cases found
    · exact .inl (.inl ⟨_, ds, rfl, by decide, by simpa [or_assoc] using all⟩)
    · exact .inl (.inl ⟨_, ds, rfl, by decide, by simpa [or_assoc] using all⟩)
    · exact .inl (.inr ⟨_, ds, rfl, by decide, by simpa [or_assoc] using all⟩)
    · exact .inl (.inr ⟨_, ds, rfl, by decide, by simpa [or_assoc] using all⟩)
    · exact .inr ⟨_, ds, rfl, by decide, by simpa [or_assoc] using all⟩
    · exact .inr ⟨_, ds, rfl, by decide, by simpa [or_assoc] using all⟩

theorem hasRadix_eq (w : List Char) : hasRadix w = (radixOf? w).isSome := by
  have letters (c : Char) :
      (radixDigit? c).isSome = decide (c ∈ ['x', 'X', 'o', 'O', 'b', 'B']) := by
    unfold radixDigit?
    split <;> simp_all
  rcases w with _ | ⟨zero, _ | ⟨letter, rest⟩⟩
  · rfl
  · simp [hasRadix, radixOf?]
  · by_cases first : zero = '0' <;> simp [hasRadix, radixOf?, first, letters]

theorem radixOf?_of_prefix {w cs : List Char} (begins : w <+: cs) (plain : radixOf? cs = none) :
    radixOf? w = none := by
  rw [Option.eq_none_iff_forall_ne_some]
  intro isDigit found
  obtain ⟨letter, rest, rfl⟩ := radixOf?_eq_some found
  obtain ⟨more, rfl⟩ := begins
  cases found.symm.trans plain

/-! The number that is found is the longest, and its text tells what it is. -/

def Numeral.content (found : Numeral) (text : List Char) : Content :=
  match found.kind with
  | some kind => .token kind
  | none => .fault (.malformedNumber (String.ofList text))

theorem Cut.marked_iff {whole fraction power : List Char} (cut : Cut whole fraction power) :
    ('.' ∈ whole ++ (fraction ++ power) ∨ 'e' ∈ whole ++ (fraction ++ power) ∨
      'E' ∈ whole ++ (fraction ++ power)) ↔ fraction ++ power ≠ [] := by
  have unlike {c : Char} (other : ¬ isDecimal c = true) : c ∉ whole :=
    fun inside => other (cut.whole c inside)
  have noPoint : '.' ∉ whole := unlike (by decide)
  have noMark : 'e' ∉ whole := unlike (by decide)
  have noCapital : 'E' ∉ whole := unlike (by decide)
  obtain rfl | ⟨ds, rfl, -⟩ := cut.fraction
  · obtain rfl | spelled := cut.power
    · simp [noPoint, noMark, noCapital]
    · obtain ⟨mark, rest, rfl, letter, -⟩ := mem_exponent.mp spelled
      obtain rfl | rfl := isExponentMark_iff.mp letter <;> simp
  · simp

theorem plainNumeral_content {cs : List Char} (plain : radixOf? cs = none) :
    (plainNumeral cs).content (cs.take (plainNumeral cs).length) =
      contentOf (cs.take (plainNumeral cs).length) := by
  obtain ⟨fraction, power, cut, text, kind, -⟩ := plainNumeral_cut cs
  have noRadix : hasRadix (cs.take (plainNumeral cs).length) = false := by
    rw [hasRadix_eq, radixOf?_of_prefix (List.take_prefix _ _) plain]
    rfl
  rw [text] at noRadix ⊢
  generalize cs.takeWhile isDecimal = whole at *
  simp only [Numeral.content, kind, contentOf, noRadix, cut.marked_iff, Bool.false_eq_true,
    if_false]
  by_cases ends : fraction ++ power = []
  · have octal : whole.any (fun c => c == '8' || c == '9') = true ↔ '8' ∈ whole ∨ '9' ∈ whole := by
      simp only [List.any_eq_true, Bool.or_eq_true, beq_iff_eq, and_or_left, exists_or,
        exists_eq_right]
    simp only [ends, List.append_nil, ne_eq, not_true_eq_false, if_false, octal]
    split_ifs <;> rfl
  · rw [if_pos ends, if_pos ends]

theorem take_radixNumeral (letter : Char) (isDigit : Char → Bool) (rest : List Char) :
    ('0' :: letter :: rest).take (radixNumeral isDigit rest).length =
      '0' :: letter :: rest.takeWhile (fun c => c == '_' || isDigit c) := by
  rw [radixNumeral, Nat.add_comm, List.take_succ_cons, List.take_succ_cons, take_length_takeWhile]

theorem radixNumeral_content {letter : Char} {isDigit : Char → Bool} (rest : List Char)
    (found : radixDigit? letter = some isDigit) :
    (radixNumeral isDigit rest).content
        (('0' :: letter :: rest).take (radixNumeral isDigit rest).length) =
      contentOf (('0' :: letter :: rest).take (radixNumeral isDigit rest).length) := by
  rw [take_radixNumeral, Numeral.content, radixNumeral]
  generalize rest.takeWhile (fun c => c == '_' || isDigit c) = ds
  have based : hasRadix ('0' :: letter :: ds) = true := by
    rw [hasRadix_eq]
    simp [radixOf?, found]
  rw [contentOf, if_pos based]
  simp only [List.drop_succ_cons, List.drop_zero]
  split_ifs <;> rfl

theorem numeral_content (cs : List Char) :
    (numeral cs).content (cs.take (numeral cs).length) =
      contentOf (cs.take (numeral cs).length) := by
  cases found : radixOf? cs with
  | none =>
    rw [numeral_of_radixOf?_none found]
    exact plainNumeral_content found
  | some isDigit =>
    obtain ⟨letter, rest, rfl⟩ := radixOf?_eq_some found
    rw [numeral_of_radixOf?_some found]
    exact radixNumeral_content rest (by simpa [radixOf?] using found)

theorem beginsNumber_take {cs : List Char} (begins : beginsNumber cs = true) :
    beginsNumber (cs.take (plainNumeral cs).length) = true := by
  obtain ⟨n, length⟩ := Nat.exists_eq_add_one.mpr (plainNumeral_length_pos begins)
  cases cs with
  | nil => cases begins
  | cons c rest =>
    rw [length, List.take_succ_cons, beginsNumber_iff]
    obtain digit | ⟨rfl, digit⟩ := beginsNumber_iff.mp begins
    · exact .inl digit
    · have long := (plainNumeral_point digit).2
      obtain ⟨d, more, rfl, first⟩ := headIsDigit_iff.mp digit
      obtain ⟨m, rfl⟩ : ∃ m, n = m + 1 := Nat.exists_eq_add_one.mpr (by omega)
      exact .inr ⟨rfl, first⟩

theorem plainNumeral_longest {cs : List Char} (plain : radixOf? cs = none)
    (begins : beginsNumber cs = true) : Longest cs (cs.take (plainNumeral cs).length) := by
  obtain ⟨fraction, power, cut, text, -, lone⟩ := plainNumeral_cut cs
  have length := List.length_take_of_le (plainNumeral_length_le cs)
  have opens := beginsNumber_take begins
  refine ⟨.inr ?_, List.take_prefix _ _, ?_, ?_⟩
  · rw [text] at opens ⊢
    exact cut.mem_plain opens
  · rintro ⟨last, next⟩
    rw [text] at last next
    obtain ⟨rfl, rfl⟩ := cut.of_getLast? last
    rw [List.append_nil, List.length_append] at next
    exact lone rfl next
  · rintro v (radix | spelled) starts apart
    · obtain ⟨letter, isDigit, ds, found, rfl, -⟩ := mem_based.mp radix
      have none := radixOf?_of_prefix starts plain
      simp [radixOf?, found] at none
    · obtain ⟨_, _, _, rfl, other⟩ := exists_cut spelled
      rw [length]
      exact other.length_le starts apart

theorem radixDigit?_apart {letter : Char} {isDigit : Char → Bool}
    (found : radixDigit? letter = some isDigit) : ¬ isDecimal letter = true ∧ letter ≠ '.' ∧
      ¬ isExponentMark letter = true ∧ isDigit '.' = false := by
  unfold radixDigit? at found
  split at found <;> cases found <;> decide

/-- Without its radix letter a number would be one character long. -/
theorem plainNumeral_length_of_radix {letter : Char} {isDigit : Char → Bool} (rest : List Char)
    (found : radixDigit? letter = some isDigit) :
    (plainNumeral ('0' :: letter :: rest)).length = 1 := by
  obtain ⟨noDecimal, noPoint, noMark, -⟩ := radixDigit?_apart found
  have whole : ('0' :: letter :: rest).takeWhile isDecimal = ['0'] := by
    rw [List.takeWhile_cons_of_pos (by decide), List.takeWhile_cons_of_neg noDecimal]
  have noFraction : fractionLength (letter :: rest) = 0 :=
    fractionLength_of_head?_ne (fun point => noPoint (Option.some.inj point))
  have noPower : exponentLength (letter :: rest) = 0 := by
    rw [exponentLength_cons, if_neg (fun both => noMark both.1)]
  simp only [plainNumeral, whole, List.length_singleton, List.drop_succ_cons, List.drop_zero,
    noFraction, noPower, Nat.add_zero]

theorem radixNumeral_longest {letter : Char} {isDigit : Char → Bool} (rest : List Char)
    (found : radixDigit? letter = some isDigit) : Longest ('0' :: letter :: rest)
      ('0' :: letter :: rest.takeWhile (fun c => c == '_' || isDigit c)) := by
  obtain ⟨-, noPoint, -, noDigit⟩ := radixDigit?_apart found
  have all : ∀ c ∈ rest.takeWhile (fun c => c == '_' || isDigit c),
      (c == '_' || isDigit c) = true := by
    intro c inside
    exact List.mem_takeWhile_imp (p := fun c => c == '_' || isDigit c) inside
  refine ⟨.inl (mem_based.mpr ⟨letter, isDigit, _, found, rfl, all⟩), ?_, ?_, ?_⟩
  · rw [List.prefix_cons_inj, List.prefix_cons_inj]
    exact List.takeWhile_prefix _
  · rintro ⟨last, -⟩
    have inside := List.mem_of_getLast? last
    simp only [List.mem_cons, noPoint.symm, false_or] at inside
    obtain first | digit := inside
    · cases first
    · have point := all _ digit
      rw [noDigit] at point
      cases point
  · rintro v (radix | spelled) starts apart
    · obtain ⟨other, isOther, ds, known, rfl, digits⟩ := mem_based.mp radix
      rw [List.prefix_cons_inj, List.cons_prefix_cons] at starts
      obtain ⟨rfl, starts⟩ := starts
      cases found.symm.trans known
      have bound := length_le_takeWhile (p := fun c => c == '_' || isDigit c) digits starts
      rw [List.length_cons, List.length_cons, List.length_cons, List.length_cons]
      omega
    · obtain ⟨_, _, _, rfl, cut⟩ := exists_cut spelled
      have bound := cut.length_le starts apart
      rw [plainNumeral_length_of_radix rest found] at bound
      rw [List.length_cons]
      omega

theorem numeral_longest {cs : List Char} (begins : beginsNumber cs = true) :
    Longest cs (cs.take (numeral cs).length) := by
  cases found : radixOf? cs with
  | none =>
    rw [numeral_of_radixOf?_none found]
    exact plainNumeral_longest found begins
  | some isDigit =>
    obtain ⟨letter, rest, rfl⟩ := radixOf?_eq_some found
    rw [numeral_of_radixOf?_some found, List.drop_succ_cons, List.drop_succ_cons, List.drop_zero,
      take_radixNumeral]
    exact radixNumeral_longest rest (by simpa [radixOf?] using found)

/-! A number is taken wherever one begins. -/

theorem numberContent_fst (c : Char) (rest : List Char) : (numberContent c rest).1 =
    contentOf ((c :: rest).take (numeral (c :: rest)).length) := by
  rw [← numeral_content, numberContent, Numeral.content]
  cases (numeral (c :: rest)).kind <;> rfl

theorem mem_of_isDigit {c : Char} (digit : c.isDigit = true) :
    c ∈ ['0', '1', '2', '3', '4', '5', '6', '7', '8', '9'] := by
  have bounds : 48 ≤ c.toNat ∧ c.toNat ≤ 57 := by
    simpa [Char.isDigit, UInt32.le_iff_toNat_le] using digit
  have spelled : c = Char.ofNat c.toNat := (Char.ofNat_toNat c).symm
  generalize c.toNat = n at bounds spelled
  obtain ⟨low, high⟩ := bounds
  interval_cases n <;> rw [spelled] <;> decide

theorem leadOf_of_beginsNumber {c : Char} {rest : List Char}
    (begins : beginsNumber (c :: rest) = true) : leadOf c rest.head? = .number := by
  obtain digit | ⟨rfl, digit⟩ := beginsNumber_iff.mp begins
  · have solid : ['0', '1', '2', '3', '4', '5', '6', '7', '8', '9'].all
        (fun d => !isSkipped d && d != '/' && !isWordStart d) = true := by decide +kernel
    have alone := List.all_eq_true.mp solid c (mem_of_isDigit digit)
    simp only [Bool.and_eq_true, Bool.not_eq_true', bne_iff_ne] at alone
    obtain ⟨⟨kept, slash⟩, word⟩ := alone
    simp [leadOf, kept, slash, word, digit]
  · rw [leadOf_point]
    exact if_pos digit

theorem contentAt_number {c : Char} {rest : List Char}
    (begins : beginsNumber (c :: rest) = true) : contentAt c rest = numberContent c rest := by
  rw [contentAt_eq_lead, leadOf_of_beginsNumber begins]
  rfl

/-- Where a digit, or a point and a digit, are ahead, a step takes the longest number, and notes
what the text of the number tells. -/
theorem takeNumber?_longest {s : Cursor} (inText : s.InText)
    (begins : ∃ d rest, d.isDigit = true ∧ (s.ahead = d :: rest ∨ s.ahead = '.' :: d :: rest)) :
    ∃ w t, Longest s.ahead w ∧ s.takeNumber? = some t ∧ t.ahead = s.ahead.drop w.length ∧
      s.Takes ⟨contentOf w, w⟩ t := by
  obtain ⟨c, rest, next, number⟩ : ∃ c rest, s.ahead = c :: rest ∧
      beginsNumber (c :: rest) = true := by
    obtain ⟨d, rest, digit, next | next⟩ := begins
    · exact ⟨d, rest, next, beginsNumber_iff.mpr (.inl digit)⟩
    · exact ⟨'.', d :: rest, next, beginsNumber_iff.mpr (.inr ⟨rfl, digit⟩)⟩
  have takes := Cursor.takes_contentAt inText next
  have bound := numeral_length_le (c :: rest)
  obtain ⟨n, length⟩ := Nat.exists_eq_add_one.mpr (numeral_length_pos number)
  have text : (c :: rest).take (numeral (c :: rest)).length =
      c :: rest.take (numberContent c rest).2 := by
    rw [numberContent_snd, length, List.take_succ_cons, Nat.add_sub_cancel]
  rw [contentAt_number number, numberContent_fst, ← text] at takes
  refine ⟨(c :: rest).take (numeral (c :: rest)).length, _, ?_,
    Cursor.takeNumber?_eq inText next number, ?_, takes⟩
  · rw [next]
    exact numeral_longest number
  · rw [Cursor.ahead_taking, next, numberContent_snd, List.length_take_of_le bound,
      Nat.sub_add_cancel (numeral_length_pos number)]

theorem takeNumber?_longest_two_points : (Cursor.start "0_8e+1_..x").InText ∧
    ∃ w t, Longest (Cursor.start "0_8e+1_..x").ahead w ∧
      (Cursor.start "0_8e+1_..x").takeNumber? = some t ∧
      t.ahead = (Cursor.start "0_8e+1_..x").ahead.drop w.length ∧
      (Cursor.start "0_8e+1_..x").Takes ⟨contentOf w, w⟩ t :=
  ⟨Cursor.inText_start _, takeNumber?_longest (Cursor.inText_start _)
    ⟨'0', ['_', '8', 'e', '+', '1', '_', '.', '.', 'x'], by decide, .inl (by decide)⟩⟩

end LexicalReport.Scan
