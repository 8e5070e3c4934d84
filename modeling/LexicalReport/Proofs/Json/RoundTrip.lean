import LexicalReport.Proofs.Json.Scalars

/-! A printed tree is read back as it was. The printer and the reader agree value by value: each
value is found again where it is printed, at any depth and before any text that does not go on with
a number, and its text is short enough for the reader. -/

namespace LexicalReport.Json

namespace Reader

open Printer (value quoted newLine moreItems moreMembers)

/-- A tree whose texts and names have all their characters and whose numbers are numerals. -/
inductive Legible : Json → Prop
  | null : Legible .null
  | bool (b : Bool) : Legible (.bool b)
  | number {literal : String} (numeral : IsNumeral literal.toList) : Legible (.number literal)
  | string (text : String) : Legible (.string (some text))
  | array {items : List Json} (legible : ∀ item ∈ items, Legible item) : Legible (.array items)
  | object {members : List (Option String × Json)} (names : ∀ m ∈ members, m.1.isSome)
    (legible : ∀ m ∈ members, Legible m.2) : Legible (.object members)

@[simp]
theorem legible_ofText (s : String) : Legible (.ofText s) :=
  .string s

@[simp]
theorem legible_ofNat (n : Nat) : Legible (.ofNat n) :=
  .number (isNumeral_decimal n)

theorem legible_ofFields {fields : List (String × Json)}
    (legible : ∀ field ∈ fields, Legible field.2) : Legible (.ofFields fields) := by
  refine .object (fun m inside => ?_) (fun m inside => ?_) <;>
    obtain ⟨field, listed, rfl⟩ := List.mem_map.mp inside
  · rfl
  · exact legible field listed

section Blanks

theorem skipSpace_cons {c : Char} (mark : isSpace c = false) (cs : List Char) :
    skipSpace (c :: cs) = c :: cs :=
  List.dropWhile_cons_of_neg (by simp [mark])

theorem skipSpace_newLine (depth : Nat) (cs : List Char) :
    skipSpace (newLine depth ++ cs) = skipSpace cs := by
  have blank : ∀ c ∈ newLine depth, isSpace c = true := by
    intro c inside
    rcases List.mem_cons.mp inside with rfl | inside
    · rfl
    · rw [List.eq_of_mem_replicate inside]
      rfl
  exact List.dropWhile_append_of_pos blank

theorem value?_congr {cs cs' : List Char} (same : skipSpace cs = skipSpace cs') (fuel : Nat) :
    value? fuel cs = value? fuel cs' := by
  cases fuel with
  | zero => rfl
  | succ fuel => rw [value?, value?, same]

theorem value?_blank (fuel : Nat) (cs : List Char) : value? fuel (' ' :: cs) = value? fuel cs :=
  value?_congr (show skipSpace (' ' :: cs) = skipSpace cs from rfl) fuel

theorem skipSpace_colon (cs : List Char) : skipSpace (':' :: cs) = ':' :: cs :=
  rfl

theorem isSpace_of_starts {c : Char} (starts : c = '-' ∨ c.isDigit = true) : isSpace c = false := by
  by_contra space
  simp only [isSpace, Bool.or_eq_true, beq_iff_eq, Bool.not_eq_false] at space
  rcases space with ((rfl | rfl) | rfl) | rfl <;> revert starts <;> decide

end Blanks

theorem value?_numeral {literal : List Char} (numeral : IsNumeral literal) {rest : List Char}
    (ends : EndsNumber rest) (fuel : Nat) :
    value? (fuel + 1) (literal ++ rest) = some (.number (String.ofList literal), rest) := by
  have read := numeral rest ends
  obtain ⟨c, cs, rfl, starts⟩ := numeral.starts
  have other : ∀ d, (d = '-' ∨ d.isDigit = true → False) → c ≠ d :=
    fun d never same => never (same ▸ starts)
  rw [value?, List.cons_append, skipSpace_cons (isSpace_of_starts starts)]
  split
  case h_7 =>
    rw [number?, ← List.cons_append, read]
    rfl
  all_goals
    rename_i same
    exact absurd (List.cons.inj same).1 (other _ (by decide))

theorem value_starts {json : Json} (legible : Legible json) (depth : Nat) :
    ∃ c cs, value depth json = c :: cs ∧ isSpace c = false ∧ c ≠ ']' := by
  cases legible with
  | null => exact ⟨_, _, rfl, rfl, by decide⟩
  | bool b => cases b <;> exact ⟨_, _, rfl, rfl, by decide⟩
  | number numeral =>
    obtain ⟨c, cs, same, starts⟩ := numeral.starts
    refine ⟨c, cs, same, isSpace_of_starts starts, ?_⟩
    rintro rfl
    revert starts
    decide
  | string text => exact ⟨_, _, rfl, rfl, by decide⟩
  | @array items legible => cases items <;> exact ⟨_, _, rfl, rfl, by decide⟩
  | @object members names legible => cases members <;> exact ⟨_, _, rfl, rfl, by decide⟩

/-- A value is read back from the text it is printed as, wherever that text stands. -/
def ReadsBack (json : Json) : Prop :=
  ∀ depth fuel rest, EndsNumber rest → (value depth json).length < fuel →
    value? fuel (value depth json ++ rest) = some (json, rest)

theorem readsBack_of_succ {json : Json}
    (back : ∀ depth fuel rest, EndsNumber rest → (value depth json).length ≤ fuel →
      value? (fuel + 1) (value depth json ++ rest) = some (json, rest)) : ReadsBack json := by
  intro depth fuel rest ends enough
  cases fuel with
  | zero => exact absurd enough (Nat.not_lt_zero _)
  | succ fuel => exact back depth fuel rest ends (Nat.le_of_lt_succ enough)

section Steps

variable {item : Json} {depth fuel : Nat} {rest more : List Char} (back : ReadsBack item)
  (ends : EndsNumber rest) (enough : (value depth item).length < fuel)
include back ends enough

theorem items?_last (closes : skipSpace rest = ']' :: more) :
    items? (fuel + 1) (newLine depth ++ (value depth item ++ rest)) = some ([item], more) := by
  rw [items?, value?_congr (skipSpace_newLine _ _), back _ _ _ ends enough]
  simp only [closes]

theorem items?_next (goesOn : skipSpace rest = ',' :: more) :
    items? (fuel + 1) (newLine depth ++ (value depth item ++ rest)) =
      (items? fuel more).map (fun read => (item :: read.1, read.2)) := by
  rw [items?, value?_congr (skipSpace_newLine _ _), back _ _ _ ends enough]
  simp only [goesOn]

theorem members?_last (name : String) (closes : skipSpace rest = '}' :: more) :
    members? (fuel + 1) (newLine depth ++ (quoted (some name) ++
      (':' :: ' ' :: (value depth item ++ rest)))) = some ([(some name, item)], more) := by
  obtain ⟨cs, start, string⟩ := string?_quoted name (':' :: ' ' :: (value depth item ++ rest))
  rw [members?, skipSpace_newLine, start, skipSpace_cons rfl]
  simp only [string, skipSpace_colon, value?_blank, back _ _ _ ends enough, closes]

theorem members?_next (name : String) (goesOn : skipSpace rest = ',' :: more) :
    members? (fuel + 1) (newLine depth ++ (quoted (some name) ++
      (':' :: ' ' :: (value depth item ++ rest)))) =
      (members? fuel more).map (fun read => ((some name, item) :: read.1, read.2)) := by
  obtain ⟨cs, start, string⟩ := string?_quoted name (':' :: ' ' :: (value depth item ++ rest))
  rw [members?, skipSpace_newLine, start, skipSpace_cons rfl]
  simp only [string, skipSpace_colon, value?_blank, back _ _ _ ends enough, goesOn]

end Steps

section Items

theorem endsNumber_moreItems (depth : Nat) (items : List Json) (rest : List Char) :
    EndsNumber (moreItems depth items ++ rest) := by
  cases items <;> exact endsNumber_cons (by decide) _

theorem items?_moreItems {item : Json} {items : List Json}
    (back : ∀ i ∈ item :: items, ReadsBack i) (depth : Nat) {fuel : Nat} (rest : List Char)
    (enough : (value (depth + 1) item ++ moreItems depth items).length < fuel) :
    items? fuel (newLine (depth + 1) ++ (value (depth + 1) item ++ (moreItems depth items ++ rest)))
      = some (item :: items, rest) := by
  induction items generalizing item fuel with
  | nil =>
    obtain ⟨fuel, rfl⟩ := Nat.exists_eq_add_one_of_ne_zero (Nat.ne_zero_of_lt enough)
    have room : (value (depth + 1) item).length < fuel := by
      simp [moreItems, newLine] at enough
      omega
    refine items?_last (back _ List.mem_cons_self) (endsNumber_moreItems _ _ _) room ?_
    rw [moreItems, List.append_assoc, skipSpace_newLine]
    rfl
  | cons next items ih =>
    obtain ⟨fuel, rfl⟩ := Nat.exists_eq_add_one_of_ne_zero (Nat.ne_zero_of_lt enough)
    simp only [moreItems, List.length_append, List.length_cons] at enough
    have room : (value (depth + 1) item).length < fuel := by omega
    have left : (value (depth + 1) next ++ moreItems depth items).length < fuel := by
      rw [List.length_append]
      omega
    have later := ih (fun i inside => back i (.tail _ inside)) left
    have goesOn : skipSpace (moreItems depth (next :: items) ++ rest) = ',' ::
        (newLine (depth + 1) ++ (value (depth + 1) next ++ (moreItems depth items ++ rest))) := by
      simp only [moreItems, List.append_assoc, List.cons_append]
      exact skipSpace_cons rfl _
    rw [items?_next (back _ List.mem_cons_self) (endsNumber_moreItems _ _ _) room goesOn, later]
    rfl

end Items

section Members

theorem endsNumber_moreMembers (depth : Nat) (members : List (Option String × Json))
    (rest : List Char) : EndsNumber (moreMembers depth members ++ rest) := by
  cases members with
  | nil | cons m members => exact endsNumber_cons (by decide) _

theorem members?_moreMembers {name : Option String} {item : Json}
    {members : List (Option String × Json)} (names : ∀ m ∈ (name, item) :: members, m.1.isSome)
    (back : ∀ m ∈ (name, item) :: members, ReadsBack m.2) (depth : Nat) {fuel : Nat}
    (rest : List Char)
    (enough : (value (depth + 1) item ++ moreMembers depth members).length < fuel) :
    members? fuel (newLine (depth + 1) ++ (quoted name ++
        (':' :: ' ' :: (value (depth + 1) item ++ (moreMembers depth members ++ rest)))))
      = some ((name, item) :: members, rest) := by
  induction members generalizing name item fuel with
  | nil =>
    obtain ⟨fuel, rfl⟩ := Nat.exists_eq_add_one_of_ne_zero (Nat.ne_zero_of_lt enough)
    obtain ⟨text, rfl⟩ := Option.isSome_iff_exists.mp (names _ List.mem_cons_self)
    have room : (value (depth + 1) item).length < fuel := by
      simp [moreMembers, newLine] at enough
      omega
    refine members?_last (back _ List.mem_cons_self) (endsNumber_moreMembers _ _ _) room _ ?_
    rw [moreMembers, List.append_assoc, skipSpace_newLine]
    rfl
  | cons next members ih =>
    obtain ⟨fuel, rfl⟩ := Nat.exists_eq_add_one_of_ne_zero (Nat.ne_zero_of_lt enough)
    obtain ⟨text, rfl⟩ := Option.isSome_iff_exists.mp (names _ List.mem_cons_self)
    simp only [moreMembers, List.length_append, List.length_cons] at enough
    have room : (value (depth + 1) item).length < fuel := by omega
    have left : (value (depth + 1) next.2 ++ moreMembers depth members).length < fuel := by
      rw [List.length_append]
      omega
    have later := ih (fun m inside => names m (.tail _ inside))
      (fun m inside => back m (.tail _ inside)) left
    have goesOn : skipSpace (moreMembers depth (next :: members) ++ rest) = ',' ::
        (newLine (depth + 1) ++ (quoted next.1 ++ (':' :: ' ' ::
          (value (depth + 1) next.2 ++ (moreMembers depth members ++ rest))))) := by
      simp only [moreMembers, List.append_assoc, List.cons_append, List.nil_append]
      exact skipSpace_cons rfl _
    rw [members?_next (back _ List.mem_cons_self) (endsNumber_moreMembers _ _ _) room _ goesOn,
      later]
    rfl

end Members

theorem readsBack_of_legible {json : Json} (legible : Legible json) : ReadsBack json := by
  induction legible <;> refine readsBack_of_succ fun depth fuel rest ends enough => ?_
  case null => rfl
  case bool b => cases b <;> rfl
  case number literal numeral =>
    rw [value, value?_numeral numeral ends, String.ofList_toList]
  case string text =>
    obtain ⟨cs, start, string⟩ := string?_quoted text rest
    rw [value, start, value?, skipSpace_cons rfl]
    simp only [string]
    rfl
  case array items legible back =>
    cases items with
    | nil => rfl
    | cons item items =>
      simp only [value, List.length_append, List.length_cons] at enough
      have read := items?_moreItems back depth rest
        (show (value (depth + 1) item ++ moreItems depth items).length < fuel by
          rw [List.length_append]; omega)
      -- the reader looks past the blanks for a bracket, which no value begins with
      obtain ⟨c, cs, start, mark, other⟩ := value_starts (legible _ List.mem_cons_self) (depth + 1)
      have inside : skipSpace (newLine (depth + 1) ++ (value (depth + 1) item ++
          (moreItems depth items ++ rest))) = c :: (cs ++ (moreItems depth items ++ rest)) := by
        rw [skipSpace_newLine, start, List.cons_append, skipSpace_cons mark]
      simp only [value, List.cons_append, List.append_assoc]
      rw [value?, skipSpace_cons rfl]
      simp only [inside, read]
      split
      · next same => exact absurd (List.cons.inj same).1 other
      · rfl
  case object members names legible back =>
    cases members with
    | nil => rfl
    | cons member members =>
      simp only [value, List.length_append, List.length_cons] at enough
      have read := members?_moreMembers names back depth rest
        (show (value (depth + 1) member.2 ++ moreMembers depth members).length < fuel by
          rw [List.length_append]; omega)
      simp only [value, List.cons_append, List.append_assoc, List.nil_append]
      rw [value?, skipSpace_cons rfl]
      simp only [skipSpace_newLine, read]
      rfl

end Reader

theorem read?_print {json : Json} (legible : Reader.Legible json) :
    read? json.print = some json := by
  have back := Reader.readsBack_of_legible legible 0 _ [] Reader.endsNumber_nil (Nat.lt_succ_self _)
  rw [List.append_nil] at back
  simp only [read?, print, String.toList_ofList, back]
  rfl

end LexicalReport.Json
