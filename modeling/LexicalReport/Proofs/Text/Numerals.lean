import LexicalReport.Text.Field
import Mathlib.Data.List.DropRight

/-! Decimal digits at the end of a text. The digits tell their number, also with zeros in front, and
the text before them ends where the digits begin. So a text whose last character is no digit and a
number after it can be told apart again. -/

namespace LexicalReport.Text

section Runs

variable {α : Type} {p : α → Bool} {front other run tail : List α}

theorem rdropWhile_append_run (all : ∀ a ∈ run, p a) (ends : front.rdropWhile p = front) :
    (front ++ run).rdropWhile p = front := by
  have inside : ∀ a ∈ run.reverse, p a := fun a member => all a (List.mem_reverse.mp member)
  rw [List.rdropWhile, List.reverse_append, List.dropWhile_append_of_pos inside]
  exact ends

/-- There is one way to cut a list into a run and a front that does not end in it. -/
theorem append_run_inj (all : ∀ a ∈ run, p a) (all' : ∀ a ∈ tail, p a)
    (ends : front.rdropWhile p = front) (ends' : other.rdropWhile p = other)
    (same : front ++ run = other ++ tail) : front = other ∧ run = tail := by
  have fronts : front = other := by
    rw [← rdropWhile_append_run all ends, same, rdropWhile_append_run all' ends']
  subst fronts
  exact ⟨rfl, List.append_cancel_left same⟩

end Runs

theorem isDigit_of_mem_zeroPadded {width n : Nat} {c : Char}
    (inside : c ∈ (zeroPadded width n).toList) : c.isDigit = true := by
  rw [zeroPadded, String.toList_append, List.mem_append, String.toList_ofList,
    Nat.toString_eq_ofList_toDigits, String.toList_ofList] at inside
  rcases inside with zero | digit
  · rw [List.eq_of_mem_replicate zero]
    rfl
  · exact Nat.isDigit_of_mem_toDigits (by decide) (by decide) digit

theorem zeroPadded_ne_nil (width n : Nat) : (zeroPadded width n).toList ≠ [] := by
  rw [zeroPadded, String.toList_append, Nat.toString_eq_ofList_toDigits, String.toList_ofList,
    String.toList_ofList]
  exact List.append_ne_nil_of_right_ne_nil _ Nat.toDigits_ne_nil

theorem ofDigitChars_zeros (k : Nat) (ds : List Char) :
    Nat.ofDigitChars 10 (List.replicate k '0' ++ ds) 0 = Nat.ofDigitChars 10 ds 0 := by
  induction k with
  | zero => rfl
  | succ k ih => exact ih

theorem ofDigitChars_zeroPadded (width n : Nat) :
    Nat.ofDigitChars 10 (zeroPadded width n).toList 0 = n := by
  rw [zeroPadded, String.toList_append, String.toList_ofList, ofDigitChars_zeros,
    Nat.toString_eq_ofList_toDigits, String.toList_ofList, Nat.ofDigitChars_ten_toDigits]

theorem zeroPadded_inj {width wider n k : Nat}
    (same : (zeroPadded width n).toList = (zeroPadded wider k).toList) : n = k := by
  rw [← ofDigitChars_zeroPadded width n, same, ofDigitChars_zeroPadded]

theorem field_inj {front other : List Char} {separator : Char} {width n k : Nat}
    (sign : separator.isDigit = false)
    (same : front ++ separator :: (zeroPadded width n).toList =
      other ++ separator :: (zeroPadded width k).toList) : front = other ∧ n = k := by
  have ends (xs : List Char) :
      (xs ++ [separator]).rdropWhile Char.isDigit = xs ++ [separator] :=
    List.rdropWhile_concat_neg Char.isDigit xs separator (by simp [sign])
  rw [List.append_cons, List.append_cons other] at same
  obtain ⟨fronts, digits⟩ := append_run_inj (fun _ => isDigit_of_mem_zeroPadded)
    (fun _ => isDigit_of_mem_zeroPadded) (ends front) (ends other) same
  exact ⟨List.append_cancel_right fronts, zeroPadded_inj digits⟩

end LexicalReport.Text
