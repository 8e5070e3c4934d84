import LexicalReport.CommandLine.Reader
import LexicalReport.Proofs.Json.Scalars
import Mathlib.Data.List.TakeWhile

/-! Scores on a command line. A score that is written in decimal is read back, down to the least and
up to the greatest word. A negative one looks like a cluster of letters and fills its slot all the
same. -/

namespace LexicalReport.CommandLine

def decimal (n : Int64) : String :=
  toString n.toInt

theorem word?_toInt (n : Int64) : word? n.toInt = some n := by
  rw [word?, if_pos ⟨n.minValue_le_toInt, n.toInt_le⟩, Int64.ofInt_toInt]

theorem natural?_toString (m : Nat) : natural? (toString m).toList = some m := by
  rw [Nat.toString_eq_ofList_toDigits, String.toList_ofList]
  have filled : (Nat.toDigits 10 m).isEmpty = false := by simp
  have digits : (Nat.toDigits 10 m).all Char.isDigit = true :=
    List.all_eq_true.mpr Json.Reader.isDigit_of_mem_decimal
  rw [natural?, filled, digits, Text.digitsValue, Nat.ofDigitChars_ten_toDigits]
  rfl

theorem toList_toString_eq_cons (m : Nat) :
    ∃ d rest, (toString m).toList = d :: rest ∧ ∀ c ∈ d :: rest, c.isDigit = true := by
  rw [Nat.toString_eq_ofList_toDigits, String.toList_ofList]
  obtain ⟨d, rest, digits⟩ := List.exists_cons_of_ne_nil (Nat.toDigits_ne_nil (n := m) (b := 10))
  exact ⟨d, rest, digits, digits ▸ fun c => Json.Reader.isDigit_of_mem_decimal c⟩

theorem decimal_cases (n : Int64) :
    (∃ m : Nat, n.toInt = m ∧ (decimal n).toList = (toString m).toList) ∨
      ∃ m : Nat, n.toInt = -m ∧ (decimal n).toList = '-' :: (toString m).toList := by
  rw [decimal]
  cases n.toInt with
  | ofNat m => exact .inl ⟨m, rfl, rfl⟩
  | negSucc m =>
    refine .inr ⟨m + 1, rfl, ?_⟩
    have written : toString (Int.negSucc m) = "-" ++ toString (m + 1) := rfl
    rw [written, String.toList_append]
    rfl

theorem score?_decimal (n : Int64) : score? (decimal n) = some n := by
  rw [score?]
  obtain ⟨m, value, written⟩ | ⟨m, value, written⟩ := decimal_cases n
  · have unsigned : scoreOfChars? (toString m).toList =
        (natural? (toString m).toList).bind (fun k => word? k) := by
      obtain ⟨d, rest, digits, areDigits⟩ := toList_toString_eq_cons m
      have first : d.isDigit = true := areDigits d List.mem_cons_self
      rw [digits, scoreOfChars?]
      all_goals
        rintro - ⟨⟩
        exact absurd first (by decide)
    rw [written, unsigned, natural?_toString, Option.bind_some, ← value, word?_toInt]
  · rw [written, scoreOfChars?, natural?_toString, Option.bind_some, ← value, word?_toInt]

theorem isUnsignedNumber_of_isDigit {d : Char} {rest : List Char}
    (digits : ∀ c ∈ d :: rest, c.isDigit = true) : isUnsignedNumber (d :: rest) = true := by
  have whole : (d :: rest).dropWhile Char.isDigit = [] :=
    List.dropWhile_eq_nil_iff.mpr digits
  have first : d.isDigit = true := digits d List.mem_cons_self
  rw [isUnsignedNumber, whole, withoutFraction]
  · simpa using first
  · rintro - ⟨⟩

theorem ofText_decimal (n : Int64) :
    Word.ofText (decimal n) = .plain ∨
      ∃ letters, Word.ofText (decimal n) = .cluster letters ∧ isUnsignedNumber letters = true := by
  rw [Word.ofText]
  obtain ⟨m, -, written⟩ | ⟨m, -, written⟩ := decimal_cases n
  all_goals
    obtain ⟨d, rest, digits, areDigits⟩ := toList_toString_eq_cons m
    have dash : d ≠ '-' := by
      rintro rfl
      exact absurd (areDigits '-' List.mem_cons_self) (by decide)
    rw [written, digits]
  · left
    rw [Word.ofChars] <;> simp [dash]
  · right
    refine ⟨d :: rest, ?_, isUnsignedNumber_of_isDigit areDigits⟩
    rw [Word.ofChars] <;> simp [dash]

theorem ofText_decimal_ne (n : Int64) : Word.ofText (decimal n) ≠ .endOfOptions := by
  obtain plain | ⟨letters, cluster, -⟩ := ofText_decimal n
  · simp [plain]
  · simp [cluster]

namespace Draft

/-- A decimal fills a slot for a score, unless a setting still waits for its value. -/
theorem take_decimal (scope : Scope) {draft : Draft} (n : Int64)
    (slot : draft.slots.head? = some .score) (idle : ∀ s, draft.pending ≠ some (.setting s none)) :
    draft.take scope (decimal n) = draft.fill scope (decimal n) := by
  obtain plain | ⟨letters, cluster, number⟩ := ofText_decimal n
  · simp only [take, plain]
  · simp only [take, cluster]
    exact if_pos ⟨slot, number⟩

theorem settle_decimal (given : List Given) (n : Int64) (slots : List Slot) :
    settle ⟨given, some (.slot .score (decimal n)), slots⟩ =
      .ok ⟨given ++ [.score n], none, slots⟩ := by
  simp only [settle, Pending.read, Slot.read, score?_decimal]

theorem takeAll_decimals (scope : Scope) (ns : List Int64) (draft : Draft) (given : List Given)
    (slots : draft.slots = List.replicate ns.length .score)
    (idle : ∀ s, draft.pending ≠ some (.setting s none))
    (settled : draft.settle = .ok ⟨given, none, draft.slots⟩) :
    draft.takeAll scope (ns.map decimal) = .ok ⟨given ++ ns.map .score, none, []⟩ := by
  induction ns generalizing draft given with
  | nil =>
    rw [List.map_nil, takeAll, settled, slots, List.map_nil, List.append_nil]
    rfl
  | cons n ns ih =>
    have filled : draft.take scope (decimal n) =
        .ok ⟨given, some (.slot .score (decimal n)), List.replicate ns.length .score⟩ := by
      rw [take_decimal scope n (by rw [slots]; rfl) idle, fill, slots]
      simp only [settled]
      rfl
    rw [List.map_cons, takeAll, if_neg (ofText_decimal_ne n), filled]
    refine (ih _ (given ++ [.score n]) rfl (by simp) (settle_decimal ..)).trans ?_
    rw [List.map_cons, List.append_assoc, List.singleton_append]

end Draft

theorem readFrom_command {name : String} {scope : Scope} {words : List String} {draft : Draft}
    {command : Command} (named : Scope.ofName? name = some scope)
    (taken : (Draft.start scope).takeAll scope words = .ok draft)
    (made : draft.command scope = .ok command) (before : Draft) :
    readFrom before (name :: words) =
      .ok ⟨before.isGiven .verbose || draft.isGiven .verbose, command⟩ := by
  simp only [readFrom, named, readScope, taken]
  simp only [bind, Except.bind, made]
  rfl

theorem read_average (a b : Int64) :
    read ["average", decimal a, decimal b] = .ok ⟨false, .average a b⟩ := by
  have taken : (Draft.start .average).takeAll .average [decimal a, decimal b] =
      .ok ⟨[.score a, .score b], none, []⟩ :=
    Draft.takeAll_decimals .average [a, b] (.start .average) [] rfl (by simp [Draft.start]) rfl
  exact readFrom_command rfl taken rfl (.start .top)

theorem read_grade (a : Int64) : read ["grade", decimal a] = .ok ⟨false, .grade a⟩ := by
  have taken : (Draft.start .grade).takeAll .grade [decimal a] = .ok ⟨[.score a], none, []⟩ :=
    Draft.takeAll_decimals .grade [a] (.start .grade) [] rfl (by simp [Draft.start]) rfl
  exact readFrom_command rfl taken rfl (.start .top)

end LexicalReport.CommandLine
