import LexicalReport.Grade
import Mathlib.Tactic.ByContra
import Mathlib.Tactic.SplitIfs

/-! The average of two scores up to the limits of their word. If the word holds the exact sum, the
average is half of it, so it lies between the two scores, and its grade between theirs. A sum that
the word does not hold is one of two scores on the same side of zero; it comes back at the other
limit, and takes the average across zero, away from both scores. -/

namespace LexicalReport

def SumFits (a b : Int64) : Prop :=
  Int64.minValue.toInt ≤ a.toInt + b.toInt ∧ a.toInt + b.toInt ≤ Int64.maxValue.toInt

def Between (a b score : Int64) : Prop :=
  min a b ≤ score ∧ score ≤ max a b

/-- Whether two scores stand on one side of zero and their average has left it. An average of zero
has left the negative side. -/
def Crosses (a b : Int64) : Prop :=
  0 < a ∧ 0 < b ∧ average a b < 0 ∨ a < 0 ∧ b < 0 ∧ 0 ≤ average a b

theorem between_iff {a b score : Int64} : Between a b score ↔
    min a.toInt b.toInt ≤ score.toInt ∧ score.toInt ≤ max a.toInt b.toInt := by
  have least : min a b = if a ≤ b then a else b := rfl
  have greatest : max a b = if a ≤ b then b else a := rfl
  rw [Between, least, greatest]
  simp only [Int64.le_iff_toInt_le]
  split_ifs <;> omega

theorem tdiv_two (n : Int) : n.tdiv 2 = if 0 ≤ n then n / 2 else (n + 1) / 2 := by
  split_ifs with sign
  · exact Int.tdiv_eq_ediv_of_nonneg sign
  · have two : Int.sign 2 = 1 := rfl
    rw [Int.tdiv_eq_ediv, two]
    split_ifs <;> omega

/-- A higher score has no lower grade, because it is past every threshold that the lower one is. -/
theorem Grade.rank_ofScore_le {low high : Int64} (le : low ≤ high) :
    (ofScore low).rank ≤ (ofScore high).rank := by
  have excellent (reached : excellentThreshold ≤ low) := Int64.le_trans reached le
  have good (reached : goodThreshold ≤ low) := Int64.le_trans reached le
  unfold ofScore
  split_ifs <;> simp_all [rank]

theorem toInt_average (a b : Int64) :
    (average a b).toInt = ((a.toInt + b.toInt).bmod Int64.size).tdiv 2 := by
  rw [average, Int64.toInt_div_of_ne_right _ _ (by decide), Int64.toInt_add]
  rfl

section Limits

variable {a b : Int64}

theorem sumFits_iff : SumFits a b ↔
    -9223372036854775808 ≤ a.toInt + b.toInt ∧ a.toInt + b.toInt ≤ 9223372036854775807 := by
  have least : Int64.minValue.toInt = -9223372036854775808 := by decide
  have most : Int64.maxValue.toInt = 9223372036854775807 := by decide
  rw [SumFits, least, most]

theorem crosses_iff : Crosses a b ↔
    0 < a.toInt ∧ 0 < b.toInt ∧ (average a b).toInt < 0 ∨
      a.toInt < 0 ∧ b.toInt < 0 ∧ 0 ≤ (average a b).toInt := by
  have zero : (0 : Int64).toInt = 0 := rfl
  rw [Crosses]
  simp only [Int64.lt_iff_toInt_lt, Int64.le_iff_toInt_le, zero]

theorem toInt_average_of_wraps {n : Int}
    (same : (a.toInt + b.toInt).bmod Int64.size = n.bmod Int64.size)
    (least : -9223372036854775808 ≤ n) (most : n ≤ 9223372036854775807) :
    (average a b).toInt = n.tdiv 2 := by
  have size : Int64.size = 18446744073709551616 := rfl
  rw [toInt_average, same, Int.bmod_eq_of_le] <;> omega

theorem toInt_average_of_fits (fits : SumFits a b) :
    (average a b).toInt = (a.toInt + b.toInt).tdiv 2 :=
  toInt_average_of_wraps rfl (sumFits_iff.mp fits).1 (sumFits_iff.mp fits).2

theorem between_of_fits (fits : SumFits a b) : Between a b (average a b) := by
  rw [between_iff, toInt_average_of_fits fits, tdiv_two]
  split_ifs <;> omega

theorem crosses_of_not_fits (wraps : ¬ SumFits a b) : Crosses a b := by
  have size : Int64.size = 18446744073709551616 := rfl
  have leastFirst := a.le_toInt
  have mostFirst := a.toInt_lt
  have leastSecond := b.le_toInt
  have mostSecond := b.toInt_lt
  rw [sumFits_iff, Decidable.not_and_iff_not_or_not, Int.not_le, Int.not_le] at wraps
  rw [crosses_iff]
  rcases wraps with below | above
  · right
    have half : (average a b).toInt = (a.toInt + b.toInt + Int64.size).tdiv 2 :=
      toInt_average_of_wraps (Int.add_bmod_right _ _).symm (by omega) (by omega)
    rw [half, tdiv_two]
    split_ifs <;> omega
  · left
    have half : (average a b).toInt = (a.toInt + b.toInt - Int64.size).tdiv 2 :=
      toInt_average_of_wraps (Int.sub_bmod_right _ _).symm (by omega) (by omega)
    rw [half, tdiv_two]
    split_ifs <;> omega

theorem not_between_of_crosses (crosses : Crosses a b) : ¬ Between a b (average a b) := by
  rw [crosses_iff] at crosses
  rw [between_iff]
  omega

end Limits

/-- The average lies between two scores exactly if the word holds their sum. It is half of that sum
then, and its grade is between theirs; otherwise it stands across zero from both. -/
theorem average_between_iff (a b : Int64) :
    (Between a b (average a b) ↔ SumFits a b) ∧
    (SumFits a b → (average a b).toInt = (a.toInt + b.toInt).tdiv 2 ∧
      (Grade.ofScore (min a b)).rank ≤ (Grade.ofScore (average a b)).rank ∧
      (Grade.ofScore (average a b)).rank ≤ (Grade.ofScore (max a b)).rank) ∧
    (¬ SumFits a b → Crosses a b) := by
  refine ⟨⟨fun between => ?_, between_of_fits⟩, fun fits => ?_, crosses_of_not_fits⟩
  · by_contra wraps
    exact not_between_of_crosses (crosses_of_not_fits wraps) between
  · obtain ⟨least, most⟩ := between_of_fits fits
    exact ⟨toInt_average_of_fits fits, Grade.rank_ofScore_le least, Grade.rank_ofScore_le most⟩

/-- The two limits have an average that is cut off to zero. One more than the greatest score wraps
around to the least. -/
theorem average_between_iff_limits :
    Between Int64.minValue Int64.maxValue (average Int64.minValue Int64.maxValue) ∧
      average Int64.minValue Int64.maxValue = 0 ∧
      Crosses Int64.maxValue 1 ∧ average Int64.maxValue 1 = Int64.minValue / 2 := by
  have fits : SumFits Int64.minValue Int64.maxValue := ⟨by decide, by decide⟩
  have wraps : ¬ SumFits Int64.maxValue 1 := by
    rintro ⟨-, most⟩
    exact absurd most (by decide)
  exact ⟨(average_between_iff _ _).1.mpr fits, by decide,
    (average_between_iff _ _).2.2 wraps, by decide⟩

end LexicalReport
