import LexicalReport.Proofs.Report.Document
import LexicalReport.Proofs.Scan.Endings
import LexicalReport.Proofs.Text.Numerals

/-! The line of a token tells the token. The name of its kind fills a field of a fixed width, and
the numbers are found from the end of the line, however wide they are. What is left is the value
with its filling. A value that ends in a space could not be told from its filling, but no scanned
token has such a value; what else stands in a value, the frame of a line included, does no harm. -/

namespace LexicalReport

namespace Text

def Unpadded (s : String) : Prop :=
  s.toList.rdropWhile (· == ' ') = s.toList

instance (s : String) : Decidable (Unpadded s) :=
  inferInstanceAs (Decidable (_ = _))

theorem unpadded_of_getLast? {s : String} (solid : ∀ c ∈ s.toList.getLast?, c ≠ ' ') :
    Unpadded s := by
  refine List.rdropWhile_eq_self_iff.mpr fun some => ?_
  simpa using solid _ (List.getLast_mem_getLast? some)

theorem append_inj_of_length {s t u v : String} (same : s ++ u = t ++ v)
    (length : s.length = t.length) : s = t ∧ u = v := by
  have chars := congrArg String.toList same
  rw [String.toList_append, String.toList_append] at chars
  obtain ⟨fronts, rests⟩ := List.append_inj chars length
  exact ⟨String.toList_inj.mp fronts, String.toList_inj.mp rests⟩

theorem length_padRight {width : Nat} {s : String} (narrow : s.length ≤ width) :
    (padRight width s).length = width := by
  rw [padRight, String.length_append, spaces, String.length_ofList, List.length_replicate]
  omega

theorem padRight_inj {width : Nat} {s t : String} (ends : Unpadded s) (ends' : Unpadded t)
    (same : padRight width s = padRight width t) : s = t := by
  have chars := congrArg String.toList same
  simp only [padRight, spaces, String.toList_append, String.toList_ofList] at chars
  have filling (n : Nat) : ∀ c ∈ List.replicate n ' ', (c == ' ') = true := by
    intro c inside
    rw [List.eq_of_mem_replicate inside]
    rfl
  exact String.toList_inj.mp (append_run_inj (filling _) (filling _) ends ends' chars).1

theorem space_spaces (n : Nat) : " " ++ spaces n = spaces n ++ " " := by
  have space : " ".toList = [' '] := rfl
  apply String.toList_inj.mp
  simp only [String.toList_append, spaces, String.toList_ofList, space]
  exact List.replicate_succ.symm.trans List.replicate_succ'

theorem append_padLeft (width : Nat) (s t : String) :
    s ++ (" " ++ padLeft width t) = s ++ spaces (width - t.length) ++ (" " ++ t) :=
  calc s ++ (" " ++ padLeft width t)
      = s ++ (" " ++ spaces (width - t.length) ++ t) := by rw [padLeft, String.append_assoc]
    _ = s ++ (spaces (width - t.length) ++ " " ++ t) := by rw [space_spaces]
    _ = s ++ spaces (width - t.length) ++ (" " ++ t) := by simp only [String.append_assoc]

theorem padLeft_inj {s t : String} {width n k : Nat}
    (same : s ++ (" " ++ padLeft width (toString n)) = t ++ (" " ++ padLeft width (toString k))) :
    s = t ∧ n = k := by
  have numbers : n = k := by
    have digits (front : String) (m : Nat) : (front ++ (" " ++ toString m)).toList =
        front.toList ++ ' ' :: (zeroPadded 0 m).toList := by
      simp [zeroPadded]
    rw [append_padLeft, append_padLeft] at same
    have chars := congrArg String.toList same
    rw [digits, digits] at chars
    exact (field_inj (by decide) chars).2
  subst numbers
  exact ⟨(String.append_left_inj _).mp same, rfl⟩

end Text

namespace Token

open Text (Unpadded padRight padRight_inj padLeft_inj length_padRight append_inj_of_length)

theorem Kind.length_name_le (kind : Kind) : kind.name.length ≤ kindWidth := by
  cases kind <;> decide

theorem Kind.unpadded_name (kind : Kind) : Unpadded kind.name := by
  cases kind <;> decide +kernel

theorem Kind.name_inj {kind other : Kind} (same : kind.name = other.name) : kind = other := by
  have read := congrArg ofName? same
  rwa [ofName?_name, ofName?_name, Option.some.injEq] at read

def lineFront (t : Token) : String :=
  "Token: " ++ padRight kindWidth t.kind.name ++ (" | Value: " ++ padRight valueWidth t.value)

theorem displayLine_eq (t : Token) : t.displayLine =
    t.lineFront ++ " | Line:" ++ (" " ++ placeField t.line) ++ " | Column:" ++
      (" " ++ placeField t.column) := by
  have line : " | Line: " = " | Line:" ++ " " := rfl
  have column : " | Column: " = " | Column:" ++ " " := rfl
  unfold displayLine lineOf lineFront
  rw [line, column]
  simp only [String.append_assoc]

theorem lineFront_inj {t u : Token} (ends : Unpadded t.value) (ends' : Unpadded u.value)
    (same : t.lineFront = u.lineFront) : t.kind = u.kind ∧ t.value = u.value := by
  have width (v : Token) :
      ("Token: " ++ padRight kindWidth v.kind.name).length = 7 + kindWidth := by
    rw [String.length_append, length_padRight v.kind.length_name_le]
    rfl
  obtain ⟨kinds, values⟩ := append_inj_of_length same ((width t).trans (width u).symm)
  have names := padRight_inj t.kind.unpadded_name u.kind.unpadded_name
    ((String.append_right_inj _).mp kinds)
  exact ⟨Kind.name_inj names, padRight_inj ends ends' ((String.append_right_inj _).mp values)⟩

theorem displayLine_inj {t u : Token} (ends : Unpadded t.value) (ends' : Unpadded u.value)
    (same : t.displayLine = u.displayLine) : t = u := by
  rw [displayLine_eq, displayLine_eq] at same
  obtain ⟨before, column⟩ := padLeft_inj same
  obtain ⟨before, line⟩ := padLeft_inj ((String.append_left_inj _).mp before)
  obtain ⟨kind, value⟩ := lineFront_inj ends ends' ((String.append_left_inj _).mp before)
  cases t
  cases u
  rw [mk.injEq]
  exact ⟨kind, value, UInt32.toNat_inj.mp line, UInt32.toNat_inj.mp column⟩

-- without the condition on the values the filling hides a space
example : displayLine ⟨.identifier, "x", 1, 1⟩ = displayLine ⟨.identifier, "x ", 1, 1⟩ := by
  decide +kernel

end Token

namespace Scan

theorem unpadded_of_token {source : String} {t : Token} (inside : t ∈ (ofText source).tokens) :
    Text.Unpadded t.value := by
  refine Text.unpadded_of_getLast? fun c last => ?_
  rintro rfl
  exact absurd ((standsAlone_of_token inside).not_isSkipped ' ' last) (by decide)

/-- Scanned tokens with the same line are the same, whatever sources they are from. -/
theorem displayLine_tells_token {source other : String} {t u : Token}
    (inside : t ∈ (ofText source).tokens) (among : u ∈ (ofText other).tokens)
    (same : t.displayLine = u.displayLine) : t = u :=
  Token.displayLine_inj (unpadded_of_token inside) (unpadded_of_token among) same

/-- A string that reads like the end of a line, in two sources. -/
theorem displayLine_tells_token_imitation :
    let t : Token := ⟨.stringLiteral, "\"x\\\" | Line:    1 | Column:    1\"", 2, 3⟩
    t ∈ (ofText "'\n  \"x\\\" | Line:    1 | Column:    1\";").tokens ∧
      ∃ u ∈ (ofText "\x60\n\x60+\"x\\\" | Line:    1 | Column:    1\"").tokens,
        t.displayLine = u.displayLine ∧ t = u := by
  intro t
  have inside : t ∈ (ofText "'\n  \"x\\\" | Line:    1 | Column:    1\";").tokens := by
    decide +kernel
  have among : t ∈ (ofText "\x60\n\x60+\"x\\\" | Line:    1 | Column:    1\"").tokens := by
    decide +kernel
  exact ⟨inside, t, among, rfl, displayLine_tells_token inside among rfl⟩

end Scan

end LexicalReport
