import Mathlib.Computability.Language

/-! Languages of texts that are put together from classes of characters: one character of a class,
and any number of them. -/

namespace LexicalReport.Text

open scoped Computability

def oneOf (p : Char → Prop) : Language Char :=
  {w | ∃ c, w = [c] ∧ p c}

variable {p : Char → Prop} {l : Language Char} {c : Char} {w : List Char}

theorem singleton_mem_oneOf : [c] ∈ oneOf p ↔ p c := by
  refine ⟨?_, fun holds => ⟨c, rfl, holds⟩⟩
  rintro ⟨d, same, holds⟩
  cases same
  exact holds

theorem mem_oneOf_mul : w ∈ oneOf p * l ↔ ∃ c rest, w = c :: rest ∧ p c ∧ rest ∈ l := by
  rw [Language.mem_mul]
  constructor
  · rintro ⟨_, ⟨c, rfl, holds⟩, rest, inside, rfl⟩
    exact ⟨c, rest, rfl, holds, inside⟩
  · rintro ⟨c, rest, rfl, holds, inside⟩
    exact ⟨[c], singleton_mem_oneOf.mpr holds, rest, inside, rfl⟩

theorem cons_mem_oneOf_mul : c :: w ∈ oneOf p * l ↔ p c ∧ w ∈ l := by
  rw [mem_oneOf_mul]
  constructor
  · rintro ⟨d, rest, same, holds, inside⟩
    cases same
    exact ⟨holds, inside⟩
  · rintro ⟨holds, inside⟩
    exact ⟨c, w, rfl, holds, inside⟩

theorem mem_oneOf_kstar : w ∈ (oneOf p)∗ ↔ ∀ c ∈ w, p c := by
  constructor
  · intro inside
    obtain ⟨texts, rfl, all⟩ := Language.mem_kstar.mp inside
    intro c member
    obtain ⟨text, listed, here⟩ := List.mem_flatten.mp member
    obtain ⟨d, rfl, holds⟩ := all text listed
    rwa [List.mem_singleton.mp here]
  · intro all
    refine Language.mem_kstar.mpr ⟨w.map (fun c => [c]), (List.flatMap_singleton' w).symm, ?_⟩
    intro text member
    obtain ⟨c, inside, rfl⟩ := List.mem_map.mp member
    exact singleton_mem_oneOf.mpr (all c inside)

theorem append_mem_kstar {piece : List Char} (first : piece ∈ l) (more : w ∈ l∗) :
    piece ++ w ∈ l∗ :=
  (mul_kstar_le_kstar : l * l∗ ≤ l∗) (Language.append_mem_mul first more)

theorem mem_one_add : w ∈ 1 + l ↔ w = [] ∨ w ∈ l := by
  rw [Language.mem_add, Language.mem_one]

end LexicalReport.Text
