import LexicalReport.Proofs.Json.RoundTrip
import LexicalReport.Report.Decoding
import LexicalReport.Report.Encoding

/-! The document of a run tells its reports in full: it is one JSON text and a line end, each of its
entries decodes to the report it was made from, whatever the texts, faults and places in it, and its
counts are those of what is decoded. -/

namespace LexicalReport

open Decoding
open Json.Reader (Legible legible_ofText legible_ofNat legible_ofFields)

section Decoded

theorem Decoding.word?_ofNat (n : UInt32) : word? (.ofNat n.toNat) = some n := by
  rw [word?, Json.natural?_ofNat, Option.bind_some, if_pos n.toNat_lt]
  simp

theorem Decoding.list?_map {α : Type} {item? : Json → Option α} {toJson : α → Json}
    (back : ∀ x, item? (toJson x) = some x) (xs : List α) :
    list? item? (.array (xs.map toJson)) = some xs := by
  induction xs with
  | nil => rfl
  | cons x xs ih =>
    rw [list?] at ih
    rw [list?, List.map_cons, List.mapM_cons, back, ih]
    rfl

theorem Token.Kind.ofName?_name (kind : Token.Kind) : ofName? kind.name = some kind := by
  have found : ∀ kind ∈ all, ofName? kind.name = some kind := by decide +kernel
  exact found kind (by cases kind <;> decide)

theorem Token.ofJson?_toJson (t : Token) : ofJson? t.toJson = some t := by
  have fields : ofFields? (.ofText t.kind.name) (.ofText t.value) (.ofNat t.line.toNat)
      (.ofNat t.column.toNat) = some t := by
    rw [ofFields?, word?_ofNat, word?_ofNat, Json.ofText, Kind.ofJson?, Kind.ofName?_name]
    rfl
  exact fields

def Fault.members (fault : Fault) : List (Option String × Json) :=
  (some "kind", .ofText fault.tag) ::
    fault.quoted?.toList.map (fun text => (some "text", Json.ofText text))

theorem Fault.ofMembers?_members (fault : Fault) : ofMembers? fault.members = some fault := by
  cases fault with
  | illegalCharacter c =>
    have parts : ofParts? "illegal_character" (some (.ofText (String.singleton c))) =
        some (illegalCharacter c) := by
      simp [ofParts?, Json.ofText]
    exact parts
  | _ => rfl

theorem Diagnostic.ofJson?_toJson (room : Nat) (d : Diagnostic) :
    ofJson? room d.toJson = some d := by
  obtain ⟨fault, line, column⟩ := d
  -- the members that are set aside are those of the fault, and they have no depth
  have parts : ofJson? room (toJson ⟨fault, line, column⟩) = (do
      return ⟨← Fault.ofMembers? fault.members, ← word? (.ofNat line.toNat),
        ← word? (.ofNat column.toNat)⟩) := by
    cases fault <;> rfl
  rw [parts, Fault.ofMembers?_members, word?_ofNat, word?_ofNat]
  rfl

theorem Report.ofJson?_toJson (room : Nat) (r : Report) : ofJson? room r.toJson = some r := by
  have fields : ofFields? (room - 1) (.ofText r.source) (.array (r.tokens.map Token.toJson))
      (.array (r.errors.map Diagnostic.toJson)) = some r := by
    rw [ofFields?, list?_map Token.ofJson?_toJson, list?_map (Diagnostic.ofJson?_toJson _)]
    rfl
  exact fields

end Decoded

section Counts

def Decoding.count? (members : List (Option String × Json)) (name : String) : Option Nat := do
  (← Json.field? members name).natural?

def Summary.ofJson? : Json → Option Summary
  | .object members => do
    return ⟨← count? members "tokens", ← count? members "errors", ← count? members "keywords",
      ← count? members "identifiers"⟩
  | _ => none

def Totals.ofJson? : Json → Option Totals
  | .object members => do
    return ⟨← count? members "files", ← count? members "tokens", ← count? members "errors"⟩
  | _ => none

def Totals.toJson (t : Totals) : Json :=
  .ofFields [("files", .ofNat t.files), ("tokens", .ofNat t.tokens), ("errors", .ofNat t.errors)]

def Summary.ofEntry? : Json → Option Summary
  | .object members => (Json.field? members "summary").bind ofJson?
  | _ => none

theorem Summary.ofJson?_toJson (s : Summary) : ofJson? s.toJson = some s := by
  simp [ofJson?, toJson, count?, Json.ofFields, Json.field?]

theorem Totals.ofJson?_toJson (t : Totals) : ofJson? t.toJson = some t := by
  simp [ofJson?, toJson, count?, Json.ofFields, Json.field?]

theorem Summary.ofEntry?_toJson (r : Report) : ofEntry? r.toJson = some r.summary :=
  ofJson?_toJson r.summary

theorem Report.document_eq (reports : List Report) : document reports = .ofFields [
    ("reports", .array (reports.map toJson)), ("summary", (Totals.ofReports reports).toJson)] :=
  rfl

end Counts

section Legibility

theorem Token.legible_toJson (t : Token) : Legible t.toJson :=
  legible_ofFields (by simp)

theorem Diagnostic.legible_toJson (d : Diagnostic) : Legible d.toJson := by
  refine legible_ofFields fun field inside => ?_
  simp only [List.mem_cons, List.mem_append, List.mem_map] at inside
  rcases inside with rfl | ⟨text, -, rfl⟩ | rfl | rfl | none
  · exact legible_ofText _
  · exact legible_ofText _
  · exact legible_ofNat _
  · exact legible_ofNat _
  · cases none

theorem Summary.legible_toJson (s : Summary) : Legible s.toJson :=
  legible_ofFields (by simp)

theorem legible_map {α : Type} {toJson : α → Json} (legible : ∀ x, Legible (toJson x))
    (xs : List α) : Legible (.array (xs.map toJson)) := by
  refine .array fun item inside => ?_
  obtain ⟨x, -, rfl⟩ := List.mem_map.mp inside
  exact legible x

theorem Report.legible_toJson (r : Report) : Legible r.toJson :=
  legible_ofFields (by simp [legible_map Token.legible_toJson,
    legible_map Diagnostic.legible_toJson, Summary.legible_toJson])

theorem Totals.legible_toJson (t : Totals) : Legible t.toJson :=
  legible_ofFields (by simp)

theorem Report.legible_document (reports : List Report) : Legible (document reports) := by
  rw [document_eq]
  exact legible_ofFields (by simp [legible_map Report.legible_toJson, Totals.legible_toJson])

end Legibility

end LexicalReport
