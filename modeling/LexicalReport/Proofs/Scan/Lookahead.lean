import LexicalReport.Proofs.Scan.Segment
import Mathlib.Tactic.SplitIfs

/-! How far the pieces of segments look ahead. Take two texts that begin alike, the second of which
is at a break where they depart: at its end, or at a character that is skipped. A word, a number or
an operator that ends in what they share is the same in both, and so is what is closed in it. -/

namespace LexicalReport.Scan

open Token (Kind)
open Cursor (isSign)

/-- The end of a text, or a character that is skipped. -/
def AtBreak (cs : List Char) : Prop :=
  ∀ c ∈ cs.head?, isSkipped c = true

def Breaks (p : Char → Bool) : Prop :=
  ∀ c, isSkipped c = true → p c = false

theorem breaks_of_all {p : Char → Bool}
    (none : [' ', '\t', '\r', '\n', '\uFEFF'].all (fun c => !p c) = true) : Breaks p := by
  intro c skipped
  simpa using List.all_eq_true.mp none c (isSkipped_iff.mp skipped)

theorem breaks_isDecimal : Breaks isDecimal :=
  breaks_of_all (by decide)

theorem breaks_isDigit : Breaks Char.isDigit :=
  breaks_of_all (by decide)

theorem breaks_isWordPart : Breaks isWordPart :=
  breaks_of_all (by decide +kernel)

theorem AtBreak.head?_any {p : Char → Bool} (breaks : Breaks p) {y : List Char}
    (stop : AtBreak y) : y.head?.any p = false := by
  cases y with
  | nil => rfl
  | cons c y => exact breaks c (stop c rfl)

theorem AtBreak.head?_ne {c : Char} (solid : isSkipped c = false) {y : List Char}
    (stop : AtBreak y) : y.head? ≠ some c := by
  intro head
  have skipped := stop c head
  rw [solid] at skipped
  cases skipped

theorem AtBreak.takeWhile {p : Char → Bool} (breaks : Breaks p) {y : List Char}
    (stop : AtBreak y) : y.takeWhile p = [] := by
  cases y with
  | nil => rfl
  | cons c y => exact List.takeWhile_cons_of_neg (by simp [breaks c (stop c rfl)])

theorem fractionLength_of_head?_ne {cs : List Char} (other : cs.head? ≠ some '.') :
    fractionLength cs = 0 := by
  rw [fractionLength]
  rintro rest rfl
  exact other rfl

theorem breaks_isExponentMark : Breaks isExponentMark :=
  breaks_of_all (by decide)

theorem breaks_isSign : Breaks isSign :=
  breaks_of_all (by decide)

theorem breaks_radixDigit? {letter : Char} {isDigit : Char → Bool}
    (found : radixDigit? letter = some isDigit) : Breaks isDigit := by
  unfold radixDigit? at found
  split at found <;> cases found <;> exact breaks_of_all (by decide)

theorem breaks_radixLetter : Breaks (fun c => (radixDigit? c).isSome) :=
  breaks_of_all (by decide)

theorem AtBreak.radixDigit?_eq_none {y : List Char} (stop : AtBreak y) :
    y.head?.bind radixDigit? = none := by
  cases y with
  | nil => rfl
  | cons c y =>
    have none := Option.isSome_eq_false_iff.mp (breaks_radixLetter c (stop c rfl))
    exact Option.isNone_iff_eq_none.mp none

theorem numeral_of_radixOf?_none {cs : List Char} (plain : radixOf? cs = none) :
    numeral cs = plainNumeral cs := by
  rw [numeral_eq, plain]

theorem numeral_of_radixOf?_some {cs : List Char} {isDigit : Char → Bool}
    (found : radixOf? cs = some isDigit) : numeral cs = radixNumeral isDigit (cs.drop 2) := by
  rw [numeral_eq, found]

theorem powerLength_cons (d : Char) (cs : List Char) : powerLength (d :: cs) =
    if d.isDigit then decimalLength (d :: cs)
    else if isSign d ∧ headIsDigit cs then 1 + decimalLength cs
    else 0 := by
  have first : headIsDigit (d :: cs) = d.isDigit := rfl
  simp only [powerLength, first, List.head?_cons, Option.any_some, List.tail_cons,
    Bool.and_eq_true]

theorem operators_solid : ∀ entry ∈ operators, ∀ c ∈ entry.1, isSkipped c = false := by
  have all : operators.all (fun entry => entry.1.all (fun c => !isSkipped c)) = true := by decide
  simpa only [List.all_eq_true, Bool.not_eq_true'] using all

theorem prefix_of_prefix_append {spelling shared x : List Char} (found : spelling <+: shared ++ x)
    (inside : spelling.length ≤ shared.length) : spelling <+: shared :=
  List.prefix_of_prefix_length_le found (List.prefix_append shared x) inside

section Shared

variable {shared x y : List Char} (stop : AtBreak y)
include stop

theorem takeWhile_shared {p : Char → Bool} (breaks : Breaks p)
    (inside : ((shared ++ x).takeWhile p).length ≤ shared.length) :
    (shared ++ y).takeWhile p = (shared ++ x).takeWhile p := by
  induction shared with
  | nil =>
    rw [List.nil_append, List.length_nil, Nat.le_zero, List.length_eq_zero_iff] at inside
    rw [List.nil_append, List.nil_append, inside, stop.takeWhile breaks]
  | cons c shared ih =>
    rw [List.cons_append] at inside
    rw [List.cons_append, List.cons_append]
    by_cases holds : p c = true
    · rw [List.takeWhile_cons_of_pos holds, List.length_cons, List.length_cons] at inside
      rw [List.takeWhile_cons_of_pos holds, List.takeWhile_cons_of_pos holds,
        ih (Nat.le_of_succ_le_succ inside)]
    · rw [List.takeWhile_cons_of_neg holds, List.takeWhile_cons_of_neg holds]

theorem decimalLength_shared (inside : decimalLength (shared ++ x) ≤ shared.length) :
    decimalLength (shared ++ y) = decimalLength (shared ++ x) :=
  congrArg List.length (takeWhile_shared stop breaks_isDecimal inside)

theorem headIsDigit_break : headIsDigit y = false :=
  stop.head?_any breaks_isDigit

theorem headIsDigit_shared (first : shared = [] → headIsDigit x = false) :
    headIsDigit (shared ++ y) = headIsDigit (shared ++ x) := by
  cases shared with
  | nil => rw [List.nil_append, List.nil_append, first rfl, headIsDigit_break stop]
  | cons c shared => rfl

theorem fractionLength_shared (inside : fractionLength (shared ++ x) ≤ shared.length)
    (point : shared = ['.'] → x.head? ≠ some '.') :
    fractionLength (shared ++ y) = fractionLength (shared ++ x) := by
  rcases shared with _ | ⟨c, shared⟩
  · rw [List.nil_append, List.length_nil, Nat.le_zero] at inside
    rw [List.nil_append, List.nil_append, inside,
      fractionLength_of_head?_ne (stop.head?_ne (by decide))]
  · by_cases opens : c = '.'
    · subst opens
      have same : (shared ++ y).head? = some '.' ↔ (shared ++ x).head? = some '.' := by
        cases shared with
        | nil => exact iff_of_false (stop.head?_ne (by decide)) (point rfl)
        | cons => rfl
      rw [List.cons_append, fractionLength] at inside
      rw [List.cons_append, List.cons_append, fractionLength, fractionLength]
      by_cases second : (shared ++ x).head? = some '.'
      · rw [if_pos second, if_pos (same.mpr second)]
      · rw [if_neg second, List.length_cons] at inside
        have digits : decimalLength (shared ++ x) ≤ shared.length := by omega
        rw [if_neg second, if_neg (same.not.mpr second), decimalLength_shared stop digits]
    · have other (z : List Char) : (c :: shared ++ z).head? ≠ some '.' :=
        fun head => opens (Option.some.inj head)
      rw [fractionLength_of_head?_ne (other x), fractionLength_of_head?_ne (other y)]

theorem powerLength_shared (inside : powerLength (shared ++ x) ≤ shared.length) :
    powerLength (shared ++ y) = powerLength (shared ++ x) := by
  rcases shared with _ | ⟨d, shared⟩
  · rw [List.nil_append, List.length_nil, Nat.le_zero] at inside
    rw [List.nil_append, List.nil_append, inside, powerLength, headIsDigit_break stop,
      stop.head?_any breaks_isSign]
    rfl
  · rw [List.cons_append, powerLength_cons] at inside
    rw [List.cons_append, List.cons_append, powerLength_cons, powerLength_cons]
    by_cases digit : d.isDigit = true
    · rw [if_pos digit] at inside
      rw [if_pos digit, if_pos digit]
      exact @decimalLength_shared (d :: shared) x y stop inside
    · rw [if_neg digit] at inside
      rw [if_neg digit, if_neg digit]
      have first : shared = [] → isSign d = true → headIsDigit x = false := by
        rintro rfl sign
        by_contra digits
        rw [Bool.not_eq_false] at digits
        have long := decimalLength_pos digits
        rw [List.nil_append, if_pos ⟨sign, digits⟩, List.length_singleton] at inside
        omega
      by_cases sign : isSign d = true
      · have same := headIsDigit_shared stop (fun none => first none sign)
        rw [same]
        by_cases digits : headIsDigit (shared ++ x) = true
        · rw [if_pos ⟨sign, digits⟩, List.length_cons] at inside
          have length : decimalLength (shared ++ x) ≤ shared.length := by omega
          rw [decimalLength_shared stop length]
        · rw [if_neg (fun both => digits both.2), if_neg (fun both => digits both.2)]
      · rw [if_neg (fun both => sign both.1), if_neg (fun both => sign both.1)]

theorem exponentLength_shared (inside : exponentLength (shared ++ x) ≤ shared.length) :
    exponentLength (shared ++ y) = exponentLength (shared ++ x) := by
  rcases shared with _ | ⟨mark, shared⟩
  · rw [List.nil_append, List.length_nil, Nat.le_zero] at inside
    rw [List.nil_append, List.nil_append, inside]
    cases y with
    | nil => rfl
    | cons c y =>
      have other := breaks_isExponentMark c (stop c rfl)
      rw [exponentLength_cons, if_neg]
      rintro ⟨mark, -⟩
      rw [other] at mark
      cases mark
  · rw [List.cons_append, exponentLength_cons] at inside
    rw [List.cons_append, List.cons_append, exponentLength_cons, exponentLength_cons]
    by_cases letter : isExponentMark mark = true
    · have length : powerLength (shared ++ x) ≤ shared.length := by
        split at inside
        · rw [List.length_cons] at inside
          omega
        · rename_i none
          have zero : ¬ 0 < powerLength (shared ++ x) := fun power => none ⟨letter, power⟩
          omega
      rw [powerLength_shared stop length]
    · rw [if_neg (fun both => letter both.1), if_neg (fun both => letter both.1)]

theorem plainNumeral_shared (inside : (plainNumeral (shared ++ x)).length ≤ shared.length)
    (point : x.head? = some '.' → (plainNumeral (shared ++ x)).length = shared.length) :
    plainNumeral (shared ++ y) = plainNumeral (shared ++ x) := by
  simp only [plainNumeral] at inside point ⊢
  have wholeInside : ((shared ++ x).takeWhile isDecimal).length ≤ shared.length := by omega
  rw [takeWhile_shared stop breaks_isDecimal wholeInside]
  generalize (shared ++ x).takeWhile isDecimal = whole at *
  have beyond (n : Nat) (bound : n ≤ shared.length) (z : List Char) :
      (shared ++ z).drop n = shared.drop n ++ z := List.drop_append_of_le_length bound
  rw [beyond _ wholeInside] at inside point ⊢
  rw [beyond _ wholeInside]
  -- a point that ends the shared text and has another after it opens no fraction
  have last : shared.drop whole.length = ['.'] → x.head? ≠ some '.' := by
    intro alone head
    have full := point head
    have none : fractionLength (['.'] ++ x) = 0 := if_pos head
    have one := congrArg List.length alone
    rw [List.length_drop, List.length_singleton] at one
    rw [alone, none, Nat.add_zero, beyond _ wholeInside, alone] at full
    have noPower : exponentLength (['.'] ++ x) = 0 := rfl
    omega
  have fractionInside : fractionLength (shared.drop whole.length ++ x) ≤
      (shared.drop whole.length).length := by
    rw [List.length_drop]
    omega
  rw [fractionLength_shared stop fractionInside last]
  generalize fractionLength (shared.drop whole.length ++ x) = fraction at *
  have bound : whole.length + fraction ≤ shared.length := by omega
  rw [beyond _ bound] at inside ⊢
  rw [beyond _ bound]
  have exponentInside : exponentLength (shared.drop (whole.length + fraction) ++ x) ≤
      (shared.drop (whole.length + fraction)).length := by
    rw [List.length_drop]
    omega
  rw [exponentLength_shared stop exponentInside]

theorem radixNumeral_shared {isDigit : Char → Bool} (breaks : Breaks isDigit)
    (inside : (radixNumeral isDigit (shared ++ x)).length ≤ shared.length + 2) :
    radixNumeral isDigit (shared ++ y) = radixNumeral isDigit (shared ++ x) := by
  have wider : Breaks (fun c => c == '_' || isDigit c) := by
    have other : Breaks (· == '_') := breaks_of_all (by decide)
    exact fun c skipped => Bool.or_eq_false_iff.mpr ⟨other c skipped, breaks c skipped⟩
  simp only [radixNumeral] at inside ⊢
  have digits : ((shared ++ x).takeWhile (fun c => c == '_' || isDigit c)).length ≤
      shared.length := by omega
  rw [takeWhile_shared stop wider digits]

theorem numeral_shared (inside : (numeral (shared ++ x)).length ≤ shared.length)
    (begins : beginsNumber (shared ++ x) = true)
    (point : x.head? = some '.' → (numeral (shared ++ x)).length = shared.length) :
    numeral (shared ++ y) = numeral (shared ++ x) := by
  rcases shared with _ | ⟨c, _ | ⟨letter, shared⟩⟩
  · have length := numeral_length_pos begins
    rw [List.length_nil] at inside
    omega
  · have plain : radixOf? ([c] ++ x) = none := by
      rw [Option.eq_none_iff_forall_ne_some]
      intro isDigit found
      rw [numeral_of_radixOf?_some found] at inside
      simp only [radixNumeral, List.length_singleton] at inside
      omega
    have other : radixOf? ([c] ++ y) = none := by
      have second : ([c] ++ y)[1]? = y.head? := List.head?_eq_getElem?.symm
      rw [radixOf?, second, stop.radixDigit?_eq_none, ite_self]
    rw [numeral_of_radixOf?_none plain] at inside point ⊢
    rw [numeral_of_radixOf?_none other]
    exact plainNumeral_shared stop inside point
  · have same (z : List Char) : radixOf? (c :: letter :: shared ++ z) =
        if c = '0' then radixDigit? letter else none := by simp [radixOf?]
    cases found : (if c = '0' then radixDigit? letter else none) with
    | none =>
      rw [numeral_of_radixOf?_none ((same x).trans found)] at inside point ⊢
      rw [numeral_of_radixOf?_none ((same y).trans found)]
      exact plainNumeral_shared stop inside point
    | some isDigit =>
      have letterFound : radixDigit? letter = some isDigit := by
        split at found
        · exact found
        · cases found
      rw [numeral_of_radixOf?_some ((same x).trans found)] at inside ⊢
      rw [numeral_of_radixOf?_some ((same y).trans found)]
      exact radixNumeral_shared stop (breaks_radixDigit? letterFound) inside

theorem spelling_within {spelling : List Char} (solid : ∀ c ∈ spelling, isSkipped c = false)
    (found : spelling <+: shared ++ y) : spelling <+: shared := by
  refine prefix_of_prefix_append found ?_
  by_contra long
  rw [Nat.not_le] at long
  have here := List.prefix_iff_getElem?.mp found shared.length long
  rw [List.getElem?_append_right (Nat.le_refl _), Nat.sub_self, ← List.head?_eq_getElem?] at here
  have skipped := stop _ here
  rw [solid _ (List.getElem_mem long)] at skipped
  cases skipped

theorem operatorAt_shared {kind : Kind} {n : Nat}
    (found : operatorAt (shared ++ x) = some (kind, n)) (inside : n ≤ shared.length) :
    operatorAt (shared ++ y) = some (kind, n) := by
  obtain ⟨entry, first, same⟩ := Option.map_eq_some_iff.mp found
  cases same
  rw [operatorAt, Option.map_eq_some_iff]
  refine ⟨entry, ?_, rfl⟩
  obtain ⟨spelled, earlier, later, whole, none⟩ := List.find?_eq_some_iff_append.mp first
  refine List.find?_eq_some_iff_append.mpr ⟨?_, earlier, later, whole, fun other member => ?_⟩
  · have within := prefix_of_prefix_append (List.isPrefixOf_iff_prefix.mp spelled) inside
    exact List.isPrefixOf_iff_prefix.mpr (within.trans (List.prefix_append _ _))
  · have absent := none other member
    rw [Bool.not_eq_true', Bool.eq_false_iff] at absent ⊢
    intro spelledLater
    have listed : other ∈ operators := by
      rw [whole]
      exact List.mem_append_left _ member
    have within := spelling_within stop (operators_solid other listed)
      (List.isPrefixOf_iff_prefix.mp spelledLater)
    exact absent (List.isPrefixOf_iff_prefix.mpr (within.trans (List.prefix_append _ _)))

theorem operatorAt_none_shared (none : operatorAt (shared ++ x) = none) :
    operatorAt (shared ++ y) = .none := by
  rw [Option.eq_none_iff_forall_ne_some]
  rintro ⟨kind, n⟩ found
  obtain ⟨spelling, listed, spelled, -⟩ := operatorAt_eq_some found
  have within := spelling_within stop (operators_solid _ listed) spelled
  rw [operatorAt, Option.map_eq_none_iff, List.find?_eq_none] at none
  exact none _ listed (List.isPrefixOf_iff_prefix.mpr (within.trans (List.prefix_append _ _)))

end Shared

/-! What is closed stays closed, whatever comes after it. -/

theorem quotedLength?_take {quote : Char} {cs : List Char} {n : Nat}
    (closed : quotedLength? quote cs = some n) (y : List Char) :
    quotedLength? quote (cs.take n ++ y) = some n := by
  replace closed := closes_of_quotedLength? closed
  induction closed with
  | close line slash => exact quotedLength?_close line slash y
  | escape line _ ih =>
    rw [List.take_succ_cons, List.take_succ_cons, List.cons_append, List.cons_append,
      quotedLength?_escape, if_neg line, ih, Option.map_some]
  | other line slash apart _ ih =>
    rw [List.take_succ_cons, List.cons_append, quotedLength?_other line slash apart, ih,
      Option.map_some]

theorem rawLength?_take {quote : Char} {cs : List Char} {n : Nat}
    (closed : rawLength? quote cs = some n) (y : List Char) :
    rawLength? quote (cs.take n ++ y) = some n := by
  induction cs generalizing n with
  | nil => cases closed
  | cons c rest ih =>
    rw [rawLength?_cons] at closed
    split at closed
    · rename_i same
      cases closed
      rw [List.take_succ_cons, List.cons_append, rawLength?_cons, if_pos same]
    · rename_i other
      obtain ⟨m, found, rfl⟩ := Option.map_eq_some_iff.mp closed
      rw [List.take_succ_cons, List.cons_append, rawLength?_cons, if_neg other, ih found,
        Option.map_some]

theorem blockLength?_take {cs : List Char} {n : Nat} (closed : blockLength? cs = some n)
    (y : List Char) : blockLength? (cs.take n ++ y) = some n := by
  fun_induction blockLength? cs generalizing n with
  | case1 =>
    cases closed
    rfl
  | case2 c rest opens ih =>
    obtain ⟨m, found, rfl⟩ := Option.map_eq_some_iff.mp closed
    obtain ⟨k, length⟩ := Nat.exists_eq_add_of_le' (blockLength?_bounds found).1
    rw [List.take_succ_cons, List.cons_append, blockLength?_cons, ih found, Option.map_some]
    rintro ⟨rfl, slash⟩
    cases rest with
    | nil => cases found
    | cons d rest =>
      rw [length] at slash
      cases slash
      exact opens rest rfl rfl
  | case3 => cases closed

end LexicalReport.Scan
