import Mathlib.Algebra.Group.Nat.Defs
import Mathlib.Tactic.SplitIfs

/-! The order of texts by their characters is the order by their bytes in UTF-8: of two characters,
the lesser one has the lesser bytes, and it has them before either encoding ends. -/

namespace LexicalReport.Text

def bytes (s : String) : List UInt8 :=
  s.toUTF8.data.toList

/-- The first list is less than the second however either goes on. -/
def LessWithin (xs ys : List UInt8) : Prop :=
  ∀ more others, xs ++ more < ys ++ others

/-- How characters of one length are written: the number of bytes after the first, and the values of
the first, by their number and the least of them. -/
structure Form where
  more : Nat
  values : Nat
  least : Nat

namespace Form

def ofCode (n : Nat) : Form :=
  if n ≤ 0x7f then ⟨0, 128, 0⟩
  else if n ≤ 0x7ff then ⟨1, 32, 192⟩
  else if n ≤ 0xffff then ⟨2, 16, 224⟩
  else ⟨3, 8, 240⟩

def first (form : Form) (n : Nat) : UInt8 :=
  .ofNat (n % form.values + form.least)

end Form

def continuation (n : Nat) : UInt8 :=
  .ofNat (n % 64 + 128)

def encoded (first : Nat → UInt8) : Nat → Nat → List UInt8
  | 0, n => [first n]
  | k + 1, n => encoded first k (n / 64) ++ [continuation n]

theorem bytes_eq (s : String) : bytes s = s.toList.flatMap String.utf8EncodeChar := by
  rw [bytes, String.toUTF8_eq_toByteArray, ← String.utf8Encode_toList, List.utf8Encode]
  exact List.toList_data_toByteArray

theorem lessWithin_head {a b : UInt8} (less : a < b) (xs ys : List UInt8) :
    LessWithin (a :: xs) (b :: ys) :=
  fun _ _ => List.cons_lt_cons_iff.mpr (.inl less)

theorem LessWithin.append {xs ys : List UInt8} (less : LessWithin xs ys)
    (more others : List UInt8) : LessWithin (xs ++ more) (ys ++ others) := by
  intro last final
  rw [List.append_assoc, List.append_assoc]
  exact less _ _

theorem LessWithin.append_left {xs ys : List UInt8} (less : LessWithin xs ys)
    (shared : List UInt8) : LessWithin (shared ++ xs) (shared ++ ys) := by
  intro more others
  rw [List.append_assoc, List.append_assoc]
  exact List.append_left_lt (less more others)

theorem ofNat_lt {n m : Nat} (less : n < m) (bound : m < 256) : UInt8.ofNat n < UInt8.ofNat m := by
  rw [UInt8.lt_iff_toNat_lt, UInt8.toNat_ofNat', UInt8.toNat_ofNat']
  omega

theorem encoded_cons (first : Nat → UInt8) (k n : Nat) :
    ∃ rest, encoded first k n = first (n / 64 ^ k) :: rest := by
  induction k generalizing n with
  | zero => exact ⟨[], by rw [encoded, Nat.pow_zero, Nat.div_one]⟩
  | succ k ih =>
    obtain ⟨rest, same⟩ := ih (n / 64)
    rw [encoded, same, Nat.div_div_eq_div_mul, ← Nat.pow_succ']
    exact ⟨_, rfl⟩

theorem encoded_lessWithin {first : Nat → UInt8} {bound : Nat}
    (rising : ∀ n m, n < m → m < bound → first n < first m) (k : Nat) :
    ∀ n m, n < m → m < 64 ^ k * bound → LessWithin (encoded first k n) (encoded first k m) := by
  induction k with
  | zero =>
    intro n m less below
    exact lessWithin_head (rising n m less (by omega)) [] []
  | succ k ih =>
    intro n m less below
    rw [encoded, encoded]
    by_cases upper : n / 64 < m / 64
    · have within : m / 64 < 64 ^ k * bound := by
        rw [Nat.div_lt_iff_lt_mul (by decide), Nat.mul_right_comm, ← Nat.pow_succ]
        exact below
      exact (ih _ _ upper within).append _ _
    · have same : n / 64 = m / 64 := by omega
      rw [same]
      exact (lessWithin_head (ofNat_lt (by omega) (by omega)) [] []).append_left _

namespace Form

theorem utf8EncodeChar_eq (c : Char) : String.utf8EncodeChar c =
    encoded (ofCode c.val.toNat).first (ofCode c.val.toNat).more c.val.toNat := by
  simp only [String.utf8EncodeChar]
  generalize c.val.toNat = n
  rw [ofCode]
  split_ifs with one
  · rw [encoded, first, Nat.mod_eq_of_lt (Nat.lt_succ_of_le one), Nat.add_zero]
  · rfl
  · simp only [encoded, Nat.div_div_eq_div_mul]
    rfl
  · simp only [encoded, Nat.div_div_eq_div_mul]
    rfl

theorem first_lt {form other : Form} (apart : form.least + form.values ≤ other.least)
    (solid : 0 < form.values) (bound : other.least + other.values ≤ 256) (n m : Nat)
    (others : 0 < other.values) : form.first n < other.first m := by
  have low := Nat.mod_lt n solid
  have high := Nat.mod_lt m others
  exact ofNat_lt (by omega) (by omega)

theorem ofCode_bounds (n : Nat) : 0 < (ofCode n).values ∧
    (ofCode n).least + (ofCode n).values ≤ 256 ∧
    (n < 2 ^ 21 → n < 64 ^ (ofCode n).more * (ofCode n).values) := by
  rw [ofCode]
  split_ifs <;> simp only <;> omega

theorem ofCode_apart {n m : Nat} (less : n < m) : ofCode n = ofCode m ∨
    (ofCode n).least + (ofCode n).values ≤ (ofCode m).least := by
  rw [ofCode, ofCode]
  split_ifs <;> first | exact .inl rfl | exact .inr (by decide) | omega

end Form

theorem toNat_lt (c : Char) : c.val.toNat < 2 ^ 21 := by
  have valid : c.val.toNat.isValidChar := c.valid
  rw [Nat.isValidChar] at valid
  omega

theorem utf8EncodeChar_lessWithin {c d : Char} (less : c < d) :
    LessWithin (String.utf8EncodeChar c) (String.utf8EncodeChar d) := by
  have order : c.val.toNat < d.val.toNat := less
  obtain ⟨values, low, -⟩ := Form.ofCode_bounds c.val.toNat
  obtain ⟨others, high, fits⟩ := Form.ofCode_bounds d.val.toNat
  rw [Form.utf8EncodeChar_eq, Form.utf8EncodeChar_eq]
  obtain same | apart := Form.ofCode_apart order
  · rw [same]
    refine encoded_lessWithin (fun n m less below => ?_) _ _ _ order (fits (toNat_lt d))
    rw [Form.first, Form.first, Nat.mod_eq_of_lt below, Nat.mod_eq_of_lt (Nat.lt_trans less below)]
    exact ofNat_lt (by omega) (by omega)
  · obtain ⟨rest, begins⟩ := encoded_cons (Form.ofCode c.val.toNat).first
      (Form.ofCode c.val.toNat).more c.val.toNat
    obtain ⟨rest', begins'⟩ := encoded_cons (Form.ofCode d.val.toNat).first
      (Form.ofCode d.val.toNat).more d.val.toNat
    rw [begins, begins']
    exact lessWithin_head (Form.first_lt apart values high _ _ others) _ _

theorem bytes_lt {s t : String} (less : s < t) : bytes s < bytes t := by
  rw [bytes_eq, bytes_eq]
  have chars : s.toList < t.toList := less
  generalize s.toList = cs at chars
  generalize t.toList = ds at chars
  induction chars with
  | nil =>
    obtain ⟨b, rest, solid⟩ := List.exists_cons_of_ne_nil String.utf8EncodeChar_ne_nil
    rw [List.flatMap_nil, List.flatMap_cons, solid]
    exact List.nil_lt_cons _ _
  | rel less => exact utf8EncodeChar_lessWithin less _ _
  | cons _ ih => exact List.append_left_lt ih

end LexicalReport.Text
