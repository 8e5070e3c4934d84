import LexicalReport.Log.Basic
import LexicalReport.Proofs.Text.Numerals
import Mathlib.Tactic.SplitIfs

/-! The names of logs. The name of a log tells its user and its minute, whatever the user is called:
it is read from its end, where every field is a number, and a sign of the year stands between the
digits of the month and its own. -/

namespace LexicalReport.Log

open Text (zeroPadded zeroPadded_inj zeroPadded_ne_nil isDigit_of_mem_zeroPadded append_run_inj
  field_inj)

namespace Moment

structure SameMinute (m later : Moment) : Prop where
  year : m.year = later.year
  month : m.month = later.month
  day : m.day = later.day
  hour : m.hour = later.hour
  minute : m.minute = later.minute

instance (m later : Moment) : Decidable (SameMinute m later) :=
  decidable_of_iff (m.year = later.year ∧ m.month = later.month ∧ m.day = later.day ∧
      m.hour = later.hour ∧ m.minute = later.minute)
    ⟨fun ⟨year, month, day, hour, minute⟩ => ⟨year, month, day, hour, minute⟩,
      fun ⟨year, month, day, hour, minute⟩ => ⟨year, month, day, hour, minute⟩⟩

theorem SameMinute.stamp_eq {m later : Moment} (same : m.SameMinute later) :
    m.stamp = later.stamp := by
  rw [stamp, stamp, same.year, same.month, same.day, same.hour, same.minute]

def yearSign (year : Int) : List Char :=
  if year < 0 then ['-'] else if year ≤ 9999 then [] else ['+']

theorem eq_of_mem_yearSign {year : Int} {c : Char} (inside : c ∈ '-' :: yearSign year) :
    c = '-' ∨ c = '+' := by
  unfold yearSign at inside
  split_ifs at inside <;> simp_all

theorem yearSign_not_digit {year : Int} {c : Char} (inside : c ∈ '-' :: yearSign year) :
    (!c.isDigit) = true := by
  rcases eq_of_mem_yearSign inside with rfl | rfl <;> rfl

theorem toList_yearText (year : Int) :
    ∃ width, (yearText year).toList = yearSign year ++ (zeroPadded width year.natAbs).toList := by
  unfold yearText yearSign
  split_ifs
  · exact ⟨4, by simp [String.toList_append]⟩
  · exact ⟨4, (List.nil_append _).symm⟩
  · exact ⟨0, by simp [zeroPadded, String.toList_append]⟩

theorem year_eq {year other : Int} (sign : yearSign year = yearSign other)
    (size : year.natAbs = other.natAbs) : year = other := by
  unfold yearSign at sign
  split_ifs at sign <;> first | omega | simp at sign

theorem year_field_inj {front other : List Char} {year later : Int}
    (ends : front.rdropWhile (fun c => !c.isDigit) = front)
    (ends' : other.rdropWhile (fun c => !c.isDigit) = other)
    (same : front ++ '-' :: (yearText year).toList = other ++ '-' :: (yearText later).toList) :
    front = other ∧ year = later := by
  have solid (xs : List Char) (y : Int) :
      (xs ++ '-' :: yearSign y).rdropWhile Char.isDigit = xs ++ '-' :: yearSign y := by
    rw [List.rdropWhile_eq_self_iff]
    intro filled
    rw [List.getLast_append_of_ne_nil _ (List.cons_ne_nil _ _)]
    simpa using yearSign_not_digit (List.getLast_mem (List.cons_ne_nil '-' (yearSign y)))
  obtain ⟨width, digits⟩ := toList_yearText year
  obtain ⟨wider, digits'⟩ := toList_yearText later
  rw [digits, digits', ← List.cons_append, ← List.cons_append, ← List.append_assoc,
    ← List.append_assoc] at same
  obtain ⟨signed, sizes⟩ := append_run_inj (fun _ => isDigit_of_mem_zeroPadded)
    (fun _ => isDigit_of_mem_zeroPadded) (solid front year) (solid other later) same
  obtain ⟨fronts, signs⟩ := append_run_inj (fun _ => yearSign_not_digit)
    (fun _ => yearSign_not_digit) ends ends' signed
  exact ⟨fronts, year_eq (List.cons.inj signs).2 (zeroPadded_inj sizes)⟩

theorem append_stamp (front : List Char) (m : Moment) : front ++ '-' :: m.stamp.toList =
    ((((front ++ '-' :: (zeroPadded 2 m.day).toList) ++ '-' :: (zeroPadded 2 m.month).toList) ++
      '-' :: (yearText m.year).toList) ++ '-' :: (zeroPadded 2 m.hour).toList) ++
      'h' :: (zeroPadded 2 m.minute).toList := by
  simp [stamp, twoDigits, String.toList_append]

theorem isDigit_or_sign_of_mem_stamp {m : Moment} {c : Char} (inside : c ∈ m.stamp.toList) :
    c.isDigit = true ∨ c = '-' ∨ c = '+' ∨ c = 'h' := by
  obtain ⟨width, year⟩ := toList_yearText m.year
  have all : c ∈ [] ++ '-' :: m.stamp.toList := List.mem_cons_of_mem _ inside
  have sign : c ∈ yearSign m.year → c = '-' ∨ c = '+' :=
    fun member => eq_of_mem_yearSign (List.mem_cons_of_mem _ member)
  have digit {width n : Nat} (member : c ∈ (zeroPadded width n).toList) : c.isDigit = true :=
    isDigit_of_mem_zeroPadded member
  simp only [append_stamp, year, List.mem_append, List.mem_cons, List.not_mem_nil, false_or] at all
  grind

/-- A stamp can be told from any text before it, and it tells the minute. -/
theorem stamp_inj {front other : List Char} {m later : Moment}
    (same : front ++ '-' :: m.stamp.toList = other ++ '-' :: later.stamp.toList) :
    front = other ∧ m.SameMinute later := by
  have ends (xs : List Char) (n : Nat) : (xs ++ '-' :: (zeroPadded 2 n).toList).rdropWhile
      (fun c => !c.isDigit) = xs ++ '-' :: (zeroPadded 2 n).toList := by
    rw [List.rdropWhile_eq_self_iff]
    intro filled
    rw [List.getLast_append_of_ne_nil _ (List.cons_ne_nil _ _),
      List.getLast_cons (zeroPadded_ne_nil 2 n)]
    simpa using isDigit_of_mem_zeroPadded (List.getLast_mem (zeroPadded_ne_nil 2 n))
  rw [append_stamp, append_stamp] at same
  obtain ⟨same, minute⟩ := field_inj (by decide) same
  obtain ⟨same, hour⟩ := field_inj (by decide) same
  obtain ⟨same, year⟩ := year_field_inj (ends _ _) (ends _ _) same
  obtain ⟨same, month⟩ := field_inj (by decide) same
  obtain ⟨same, day⟩ := field_inj (by decide) same
  exact ⟨same, ⟨year, month, day, hour, minute⟩⟩

end Moment

theorem toList_fileName (user : String) (moment : Moment) : (fileName user moment).toList =
    "lexico-".toList ++ user.toList ++ '-' :: moment.stamp.toList ++ ".txt".toList := by
  simp [fileName, fileStem, String.toList_append]

theorem fileName_congr {user : String} {m later : Moment} (same : m.SameMinute later) :
    fileName user m = fileName user later := by
  rw [fileName, fileName, same.stamp_eq]

theorem fileName_inj {user other : String} {moment later : Moment} :
    fileName user moment = fileName other later ↔ user = other ∧ moment.SameMinute later := by
  constructor
  · intro same
    have letters := congrArg String.toList same
    rw [toList_fileName, toList_fileName] at letters
    obtain ⟨fronts, minute⟩ := Moment.stamp_inj (List.append_cancel_right letters)
    exact ⟨String.toList_inj.mp (List.append_cancel_left fronts), minute⟩
  · rintro ⟨rfl, minute⟩
    exact fileName_congr minute

end LexicalReport.Log
