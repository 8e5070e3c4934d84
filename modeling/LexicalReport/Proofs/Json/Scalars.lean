import LexicalReport.Json.Printer
import LexicalReport.Json.Reader
import Mathlib.Tactic.IntervalCases

/-! Numbers and strings are read back as they were written. A number may stand before any text that
does not go on with it, and a string before any text at all. -/

namespace LexicalReport.Json

namespace Reader

open Printer (escaped quoted unicodeEscape hexDigit)

def EndsNumber (rest : List Char) : Prop :=
  ∀ c, rest.head? = some c → c.isDigit = false ∧ c ≠ '.' ∧ c ≠ 'e' ∧ c ≠ 'E'

theorem endsNumber_nil : EndsNumber [] :=
  fun c head => by cases head

theorem endsNumber_cons {c : Char} (mark : c.isDigit = false ∧ c ≠ '.' ∧ c ≠ 'e' ∧ c ≠ 'E')
    (rest : List Char) : EndsNumber (c :: rest) := by
  rintro d head
  cases head
  exact mark

section Numbers

variable {rest : List Char} (ends : EndsNumber rest)
include ends

theorem fraction?_of_endsNumber : fraction? rest = some ([], rest) := by
  cases rest with
  | nil => rfl
  | cons c rest =>
    have other : c ≠ '.' := (ends c rfl).2.1
    rw [fraction?.eq_2]
    simpa using other

theorem exponent?_of_endsNumber : exponent? rest = some ([], rest) := by
  cases rest with
  | nil => rfl
  | cons c rest => simp [exponent?, (ends c rfl).2.2]

theorem digits?_append {ds : List Char} (digits : ∀ c ∈ ds, c.isDigit = true) (filled : ds ≠ []) :
    digits? (ds ++ rest) = some (ds, rest) := by
  have stop : rest.takeWhile Char.isDigit = [] ∧ rest.dropWhile Char.isDigit = rest := by
    cases rest with
    | nil => exact ⟨rfl, rfl⟩
    | cons c rest => simp [(ends c rfl).1]
  rw [digits?, List.takeWhile_append_of_pos digits, List.dropWhile_append_of_pos digits, stop.1,
    stop.2, List.append_nil]
  cases ds with
  | nil => exact absurd rfl filled
  | cons c ds => rfl

end Numbers

/-- A literal that is read whole before any text that does not go on with it. -/
def IsNumeral (literal : List Char) : Prop :=
  ∀ rest, EndsNumber rest → signed? (literal ++ rest) = some (literal, rest)

theorem isNumeral_of_digits {ds : List Char} (digits : ∀ c ∈ ds, c.isDigit = true)
    (filled : ds ≠ []) (canonical : ds.head? = some '0' → ds = ['0']) : IsNumeral ds := by
  intro rest ends
  have whole : whole? (ds ++ rest) = some (ds, rest) := by
    rw [whole?.eq_def]
    split
    · next more same =>
      cases ds with
      | nil => exact absurd rfl filled
      | cons c ds =>
        obtain ⟨rfl, rfl⟩ := List.cons.inj same
        obtain ⟨-, rfl⟩ := List.cons.inj (canonical rfl)
        rfl
    · exact digits?_append ends digits filled
  have unsigned : unsigned? (ds ++ rest) = some (ds, rest) := by
    simp [unsigned?, whole, fraction?_of_endsNumber ends, exponent?_of_endsNumber ends]
  rw [signed?.eq_def]
  split
  · next more same =>
    cases ds with
    | nil => exact absurd rfl filled
    | cons c ds =>
      obtain ⟨rfl, -⟩ := List.cons.inj same
      exact absurd (digits _ List.mem_cons_self) (by decide)
  · exact unsigned

theorem isDigit_of_mem_decimal {n : Nat} : ∀ c ∈ Nat.toDigits 10 n, c.isDigit = true :=
  fun _ => Nat.isDigit_of_mem_toDigits (by decide) (by decide)

theorem decimal_of_head? {n : Nat} (zero : (Nat.toDigits 10 n).head? = some '0') :
    Nat.toDigits 10 n = ['0'] := by
  induction n using Nat.strongRecOn with
  | ind n ih =>
    by_cases small : n < 10
    · interval_cases n <;> revert zero <;> decide
    · -- the first digit is that of a tenth of the number, which is not zero
      have longer := Nat.toDigits_of_base_le (b := 10) (by decide) (Nat.le_of_not_lt small)
      rw [longer, List.head?_append,
        Option.or_of_isSome (List.isSome_head?.mpr Nat.toDigits_ne_nil)] at zero
      have lead := ih (n / 10) (by omega) zero
      have none : n / 10 = 0 := calc
        n / 10 = Nat.ofDigitChars 10 (Nat.toDigits 10 (n / 10)) 0 :=
          Nat.ofDigitChars_ten_toDigits.symm
        _ = Nat.ofDigitChars 10 ['0'] 0 := by rw [lead]
        _ = 0 := rfl
      omega

theorem isNumeral_decimal (n : Nat) : IsNumeral (toString n).toList := by
  rw [Nat.toString_eq_ofList_toDigits, String.toList_ofList]
  exact isNumeral_of_digits isDigit_of_mem_decimal Nat.toDigits_ne_nil decimal_of_head?

theorem isDigit_or_minus_of_signed? {c : Char} {cs : List Char}
    (number : (signed? (c :: cs)).isSome) : c = '-' ∨ c.isDigit = true := by
  by_cases minus : c = '-'
  · exact .inl minus
  · right
    by_contra other
    have zero : c ≠ '0' := by
      rintro rfl
      exact other rfl
    have whole : whole? (c :: cs) = none := by
      simp [whole?, digits?, other, zero]
    rw [signed?.eq_2 _ (by simpa using minus), unsigned?, whole] at number
    cases number

theorem IsNumeral.starts {literal : List Char} (numeral : IsNumeral literal) :
    ∃ c cs, literal = c :: cs ∧ (c = '-' ∨ c.isDigit = true) := by
  have whole := numeral [] endsNumber_nil
  rw [List.append_nil] at whole
  cases literal with
  | nil => cases whole
  | cons c cs => exact ⟨c, cs, rfl, isDigit_or_minus_of_signed? (by rw [whole]; rfl)⟩

section Strings

/-- A way to write one character in a string: it is read as one piece, which spells the character
whatever stands after it. -/
def Spells (written : List Char) (c : Char) : Prop :=
  ∃ p : Piece, (∀ rest, pieces? (written ++ rest) =
      (pieces? rest).map (fun read => (p :: read.1, read.2))) ∧
    ∀ ps, spelled? (p :: ps) = (spelled? ps).map (c :: ·)

theorem spells_shortEscape {mark c : Char} (short : shortEscape? mark = some c) :
    Spells ['\\', mark] c := by
  refine ⟨.char c, fun rest => ?_, fun ps => rfl⟩
  have other : mark ≠ 'u' := by
    rintro rfl
    cases short
  rw [List.cons_append, List.singleton_append, pieces?.eq_4, short]
  · cases pieces? rest <;> rfl
  · intro a b c d more same
    exact absurd same other

theorem hexNumber?_unicodeEscape {n : Nat} (control : n < 0x20) :
    Text.hexNumber? ['0', '0', hexDigit (n / 16), hexDigit (n % 16)] = some n := by
  revert n
  decide

theorem spells_unicodeEscape {c : Char} (control : c.toNat < 0x20) :
    Spells (unicodeEscape c.toNat) c := by
  refine ⟨.unit c.toNat, fun rest => ?_, fun ps => ?_⟩
  · simp only [unicodeEscape, List.cons_append, List.nil_append]
    rw [pieces?, hexNumber?_unicodeEscape control]
    cases pieces? rest <;> rfl
  · have high : isHighHalf c.toNat = false := by simp [isHighHalf]; omega
    have low : isLowHalf c.toNat = false := by simp [isLowHalf]; omega
    rw [spelled?.eq_def]
    simp only [high, low, Char.ofNat_toNat]
    rfl

theorem spells_self {c : Char} (quote : c ≠ '"') (backslash : c ≠ '\\')
    (control : ¬ c.toNat < 0x20) : Spells [c] c := by
  refine ⟨.char c, fun rest => ?_, fun ps => rfl⟩
  rw [List.singleton_append, pieces?.eq_5, if_neg control]
  · cases pieces? rest <;> rfl
  · exact quote
  · intro a b c' d more same
    exact absurd same backslash
  · intro d more same
    exact absurd same backslash

theorem spells_escaped (c : Char) : Spells (escaped c) c := by
  rw [escaped]
  split_ifs with quote backslash _ _ _ _ _ control
  -- seven characters have a mark of their own
  iterate 7
    · subst_vars
      exact spells_shortEscape rfl
  · exact spells_unicodeEscape control
  · exact spells_self quote backslash control

theorem exists_pieces_escaped (text rest : List Char) : ∃ ps,
    pieces? (text.flatMap escaped ++ '"' :: rest) = some (ps, rest) ∧ spelled? ps = some text := by
  induction text with
  | nil => exact ⟨[], rfl, rfl⟩
  | cons c text ih =>
    obtain ⟨ps, pieces, spelled⟩ := ih
    obtain ⟨p, first, one⟩ := spells_escaped c
    refine ⟨p :: ps, ?_, ?_⟩
    · rw [List.flatMap_cons, List.append_assoc, first, pieces]
      rfl
    · rw [one, spelled]
      rfl

theorem string?_quoted (text : String) (rest : List Char) : ∃ cs,
    quoted (some text) ++ rest = '"' :: cs ∧ string? cs = some (some text, rest) := by
  obtain ⟨ps, pieces, spelled⟩ := exists_pieces_escaped text.toList rest
  refine ⟨text.toList.flatMap escaped ++ '"' :: rest, by simp [quoted], ?_⟩
  simp [string?, pieces, spelled]

end Strings

end Reader

@[simp]
theorem natural?_ofNat (n : Nat) : (ofNat n).natural? = some n := by
  have all : (Nat.toDigits 10 n).all Char.isDigit :=
    List.all_eq_true.mpr Reader.isDigit_of_mem_decimal
  rw [ofNat, natural?, Nat.toString_eq_ofList_toDigits, String.toList_ofList, if_pos all,
    Text.digitsValue, Nat.ofDigitChars_ten_toDigits]

end LexicalReport.Json
