import LexicalReport.Proofs.Scan.Delimiters
import LexicalReport.Proofs.Scan.Kinds

/-! How tokens end. A literal between delimiters ends in its delimiter. Every other token is over
before a character that is skipped, so it cannot end in one. -/

namespace LexicalReport.Scan

open Token (Kind)

section Last

variable {c d : Char} {front : List Char}

theorem eq_of_quotedLength? {quote : Char}
    (closed : quotedLength? quote (front ++ [d]) = some (front ++ [d]).length) : d = quote := by
  obtain ⟨body, -, text⟩ := body_of_quotedLength? closed
  rw [List.take_length] at text
  exact List.singleton_inj.mp (List.append_inj' text rfl).2

theorem eq_of_rawLength? {quote : Char}
    (closed : rawLength? quote (front ++ [d]) = some (front ++ [d]).length) : d = quote := by
  obtain ⟨i, found, length⟩ := Option.map_eq_some_iff.mp closed
  obtain ⟨inside, quoted, -⟩ := List.findIdx?_eq_some_iff_getElem.mp found
  have last : i = front.length := by
    rw [List.length_append, List.length_singleton] at length
    exact Nat.succ_injective length
  subst last
  simpa using quoted

theorem not_isSkipped_of_token {k : Kind}
    (found : contentAt c (front ++ [d]) = (.token k, (front ++ [d]).length)) :
    isSkipped d = false := by
  by_contra skipped
  have stop : AtBreak [d] := by
    rintro _ ⟨⟩
    simpa using skipped
  have short {x : Content × Nat} (le : x.2 ≤ front.length) :
      x ≠ (.token k, (front ++ [d]).length) := by
    rintro rfl
    rw [List.length_append, List.length_singleton] at le
    exact Nat.not_succ_le_self _ le
  rw [contentAt_eq_lead, leadOf_append_break stop] at found
  cases lead : leadOf c front.head? with
  | skipped | line =>
    rw [lead] at found
    cases found
  | block =>
    rw [lead] at found
    exact blockContent_ne_token _ k (congrArg Prod.fst found)
  -- what is over before a break is the same without it
  | word =>
    rw [lead, Lead.content, wordContent_break stop] at found
    exact short (wordContent_le c front) found
  | number =>
    rw [lead, Lead.content, numberContent_break stop (leadOf_number lead)] at found
    exact short (numberContent_le c front) found
  | operator =>
    rw [lead, Lead.content, operatorContent_break stop] at found
    exact short (operatorContent_le c front) found
  | string =>
    rw [lead] at found
    obtain rfl := eq_of_quotedLength? (quotedLength?_of_quoted found)
    exact skipped rfl
  | raw =>
    rw [lead] at found
    obtain rfl := eq_of_rawLength? (rawLength?_of_raw found)
    exact skipped rfl
  | rune =>
    rw [lead] at found
    obtain rfl := eq_of_quotedLength? (quotedLength?_of_rune found)
    exact skipped rfl

end Last

theorem StandsAlone.not_isSkipped {kind : Kind} {text : List Char}
    (alone : StandsAlone kind text) : ∀ d ∈ text.getLast?, isSkipped d = false := by
  obtain ⟨c, rest, rfl, found⟩ := alone.contentAt
  intro d last
  rcases List.eq_nil_or_concat rest with rfl | ⟨front, e, rfl⟩
  · obtain rfl := Option.some.inj last
    by_contra skipped
    rw [contentAt_of_isSkipped (by simpa using skipped)] at found
    cases found
  · rw [List.concat_eq_append] at found last
    rw [← List.cons_append, List.getLast?_concat] at last
    obtain rfl := Option.some.inj last
    exact not_isSkipped_of_token found

end LexicalReport.Scan
