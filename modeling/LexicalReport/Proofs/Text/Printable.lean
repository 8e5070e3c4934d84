import LexicalReport.Token.Basic
import Mathlib.Tactic.Basic

/-! Texts without control characters. Numbers, names of kinds and the filling of fields are such
texts, so a control character in a line of a report comes from what the report was made from. -/

namespace LexicalReport

namespace Text

def Printable (s : String) : Prop :=
  ∀ c ∈ s.toList, ' ' ≤ c

-- The characters of the text are gone over, not all the characters there are.
instance (s : String) : Decidable (Printable s) :=
  List.decidableBAll (' ' ≤ ·) s.toList

theorem not_mem_append {c : Char} {s t : String} :
    c ∉ (s ++ t).toList ↔ c ∉ s.toList ∧ c ∉ t.toList := by
  rw [String.toList_append, List.mem_append, not_or]

theorem printable_append {s t : String} : Printable (s ++ t) ↔ Printable s ∧ Printable t := by
  simp only [Printable, String.toList_append, List.mem_append, or_imp, forall_and]

theorem printable_replicate {c : Char} (shown : ' ' ≤ c) (n : Nat) :
    Printable (String.ofList (List.replicate n c)) := by
  intro d inside
  rw [String.toList_ofList] at inside
  rw [List.eq_of_mem_replicate inside]
  exact shown

theorem printable_spaces (n : Nat) : Printable (spaces n) :=
  printable_replicate (by decide) n

theorem printable_toString (n : Nat) : Printable (toString n) := by
  intro c inside
  rw [Nat.toString_eq_ofList_toDigits, String.toList_ofList] at inside
  have digit := Nat.isDigit_of_mem_toDigits (by decide) (by decide) inside
  simp only [Char.isDigit, Bool.and_eq_true, decide_eq_true_eq] at digit
  exact Char.le_trans (by decide : ' ' ≤ '0') digit.1

theorem printable_padLeft {width : Nat} {s : String} (shown : Printable s) :
    Printable (padLeft width s) :=
  printable_append.mpr ⟨printable_spaces _, shown⟩

theorem printable_zeroPadded (width n : Nat) : Printable (zeroPadded width n) := by
  rw [zeroPadded, printable_append]
  exact ⟨printable_replicate (by decide) _, printable_toString n⟩

section Control

variable {c : Char} (control : c < ' ')
include control

theorem not_mem_of_printable {s : String} (shown : Printable s) : c ∉ s.toList := by
  intro inside
  exact absurd (shown c inside) (by simpa using control)

theorem count_padRight (width : Nat) (s : String) :
    (padRight width s).toList.count c = s.toList.count c := by
  have fill := not_mem_of_printable control (printable_spaces (width - s.length))
  rw [padRight, String.toList_append, List.count_append, List.count_eq_zero.mpr fill, Nat.add_zero]

end Control

theorem lines_nil : lines [] = "" := by
  simp [lines]

theorem lines_cons (l : String) (ls : List String) : lines (l :: ls) = l ++ "\n" ++ lines ls := by
  simp [lines]

theorem lines_append (ls more : List String) : lines (ls ++ more) = lines ls ++ lines more := by
  simp [lines]

end Text

namespace Token

theorem Kind.printable_name (kind : Kind) : Text.Printable kind.name := by
  cases kind <;> decide +kernel

theorem printable_placeField (n : UInt32) : Text.Printable (placeField n) :=
  Text.printable_padLeft (Text.printable_toString _)

/-- A control character in the line of a token stands in the fields that were laid out for it. -/
theorem count_lineOf {c : Char} (control : c < ' ') (kind value : String) (t : Token) :
    (lineOf kind value t).toList.count c = kind.toList.count c + value.toList.count c := by
  have frame {s : String} (shown : Text.Printable s) : s.toList.count c = 0 :=
    List.count_eq_zero.mpr (Text.not_mem_of_printable control shown)
  simp only [lineOf, String.toList_append, List.count_append]
  rw [frame (by decide : Text.Printable "Token: "), frame (by decide : Text.Printable " | Value: "),
    frame (by decide : Text.Printable " | Line: "), frame (printable_placeField _),
    frame (by decide : Text.Printable " | Column: "), frame (printable_placeField _)]
  omega

theorem count_displayLine {c : Char} (control : c < ' ') (t : Token) :
    t.displayLine.toList.count c = t.value.toList.count c := by
  have name := Text.not_mem_of_printable control t.kind.printable_name
  rw [displayLine, count_lineOf control, Text.count_padRight control, Text.count_padRight control,
    List.count_eq_zero.mpr name, Nat.zero_add]

end Token

end LexicalReport
