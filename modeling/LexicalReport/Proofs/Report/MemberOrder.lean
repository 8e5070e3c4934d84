import LexicalReport.Report.Decoding
import Mathlib.Data.List.Forall2

/-! The order of the members of an object has no part in what is decoded, and neither have members
that a report, a token or a fault does not know. The one condition is on what is added to a fault:
it is set aside before it is passed over, so it must be a value that can be set aside. -/

namespace LexicalReport

namespace Json

def IsScalar : Json → Prop
  | array _ | object _ => False
  | _ => True

/-- The same members in another order, and among them further ones with names that are no fields. -/
def Reordered (fields : List String) (admits : Json → Prop)
    (members others : List (Option String × Json)) : Prop :=
  ∃ added, others.Perm (members ++ added) ∧
    ∀ m ∈ added, ∃ name, m.1 = some name ∧ name ∉ fields ∧ admits m.2

inductive Varies (fields : List String) (admits : Json → Prop) : Json → Json → Prop
  | same (json : Json) : Varies fields admits json json
  | object {members others : List (Option String × Json)}
    (reordered : Reordered fields admits members others) :
    Varies fields admits (.object members) (.object others)

inductive ItemsVary (vary : Json → Json → Prop) : Json → Json → Prop
  | same (json : Json) : ItemsVary vary json json
  | array {items others : List Json} (each : List.Forall₂ vary items others) :
    ItemsVary vary (.array items) (.array others)

section Members

variable {fields : List String} {admits : Json → Prop}
  {members others : List (Option String × Json)}

theorem field?_eq_of_perm {name : String} (perm : (others.filter (fun m => m.1 == some name)).Perm
    (members.filter (fun m => m.1 == some name))) : field? others name = field? members name := by
  rw [field?, field?]
  generalize others.filter (fun m => m.1 == some name) = found at perm ⊢
  generalize members.filter (fun m => m.1 == some name) = known at perm ⊢
  match known, perm with
  | [], perm => rw [List.perm_nil.mp perm]
  | [m], perm => rw [List.perm_singleton.mp perm]
  | m :: n :: known, perm =>
    obtain ⟨a, b, more, rfl⟩ : ∃ a b more, found = a :: b :: more := by
      match found, perm.length_eq with
      | a :: b :: more, _ => exact ⟨a, b, more, rfl⟩
    rfl

theorem membersBufferable_eq_all (room : Nat) (members : List (Option String × Json)) :
    membersBufferable room members =
      members.all (fun m => m.1.isSome && isBufferable room m.2) := by
  induction members with
  | nil => rfl
  | cons m members ih => rw [membersBufferable, List.all_cons, ih]

theorem isBufferable_of_zero {json : Json} (bare : json.isBufferable 0 = true) (room : Nat) :
    json.isBufferable room = true := by
  cases json with
  | array items | object members => simp [isBufferable] at bare
  | _ => exact bare

theorem isBufferable_of_scalar {json : Json} (scalar : json.IsScalar) (room : Nat) :
    json.isBufferable room = json.isBufferable 0 := by
  cases json with
  | array items | object members => cases scalar
  | _ => rfl

variable (reordered : Reordered fields admits members others)
include reordered

theorem Reordered.filter (keep : Option String × Json → Bool) :
    Reordered fields admits (members.filter keep) (others.filter keep) := by
  obtain ⟨added, perm, new⟩ := reordered
  refine ⟨added.filter keep, ?_, fun m inside => new m (List.mem_of_mem_filter inside)⟩
  rw [← List.filter_append]
  exact perm.filter keep

theorem Reordered.all_eq {p : Option String × Json → Bool}
    (admitted : ∀ name json, name ∉ fields → admits json → p (some name, json) = true) :
    others.all p = members.all p := by
  obtain ⟨added, perm, new⟩ := reordered
  have every : added.all p = true := by
    refine List.all_eq_true.mpr fun m inside => ?_
    obtain ⟨name, named, other, admits⟩ := new m inside
    rw [← admitted name m.2 other admits, ← named]
  rw [perm.all_eq, List.all_append, every, Bool.and_true]

theorem Reordered.namesReadable_eq : namesReadable others = namesReadable members :=
  reordered.all_eq fun _ _ _ _ => rfl

variable (name : String) (field : name ∈ fields)
include field

theorem Reordered.filter_field_perm : (others.filter (fun m => m.1 == some name)).Perm
    (members.filter (fun m => m.1 == some name)) := by
  obtain ⟨added, perm, new⟩ := reordered
  have none : added.filter (fun m => m.1 == some name) = [] := by
    refine List.filter_eq_nil_iff.mpr fun m inside same => ?_
    obtain ⟨other, named, apart, -⟩ := new m inside
    rw [named, beq_iff_eq, Option.some.injEq] at same
    exact apart (same ▸ field)
  have filtered := perm.filter (fun m => m.1 == some name)
  rwa [List.filter_append, none, List.append_nil] at filtered

theorem Reordered.field?_eq : field? others name = field? members name :=
  field?_eq_of_perm (reordered.filter_field_perm name field)

theorem Reordered.any_eq : others.any (fun m => m.1 == some name) =
    members.any (fun m => m.1 == some name) := by
  have apart (other : String) (json : Json) (new : other ∉ fields) (_ : admits json) :
      (!(some other == some name)) = true := by
    rw [Bool.not_eq_true', beq_eq_false_iff_ne, ne_eq, Option.some.injEq]
    rintro rfl
    exact new field
  rw [List.any_eq_not_all_not, List.any_eq_not_all_not, reordered.all_eq apart]

end Members

end Json

section Tokens

def Token.fields : List String := ["kind", "value", "line", "column"]

def Token.Varies : Json → Json → Prop :=
  Json.Varies fields Json.IsScalar

theorem Token.ofJson?_varies {json other : Json} (varies : Token.Varies json other) :
    ofJson? other = ofJson? json := by
  cases varies with
  | same => rfl
  | object reordered =>
    have kind := reordered.field?_eq "kind" (by decide)
    have value := reordered.field?_eq "value" (by decide)
    have line := reordered.field?_eq "line" (by decide)
    have column := reordered.field?_eq "column" (by decide)
    rw [ofJson?, ofJson?, reordered.namesReadable_eq, kind, value, line, column]

end Tokens

section Faults

variable {members others : List (Option String × Json)}

def Diagnostic.fields : List String := ["kind", "text", "line", "column"]

/-- What is added to a fault has to be a value that can be set aside, without room for nesting. -/
def Diagnostic.Varies : Json → Json → Prop :=
  Json.Varies fields (fun json => json.isBufferable 0 = true)

theorem Fault.ofMembers?_reordered {admits : Json → Prop}
    (reordered : Json.Reordered Diagnostic.fields admits members others) :
    ofMembers? others = ofMembers? members := by
  have kind := reordered.field?_eq "kind" (by decide)
  have text := reordered.field?_eq "text" (by decide)
  have given := reordered.any_eq "text" (by decide)
  rw [ofMembers?, ofMembers?, kind, text, given]

theorem Json.Reordered.membersBufferable_eq {fields : List String}
    (reordered : Json.Reordered fields (fun json => json.isBufferable 0 = true) members others)
    (room : Nat) : membersBufferable room others = membersBufferable room members := by
  rw [membersBufferable_eq_all, membersBufferable_eq_all]
  exact reordered.all_eq fun _ _ _ bare => isBufferable_of_zero bare room

theorem Diagnostic.ofJson?_varies {json other : Json} (varies : Diagnostic.Varies json other)
    (room : Nat) : ofJson? room other = ofJson? room json := by
  cases varies with
  | same => rfl
  | object reordered =>
    have line := reordered.field?_eq "line" (by decide)
    have column := reordered.field?_eq "column" (by decide)
    have others := reordered.filter (fun m => m.1 != some "line" && m.1 != some "column")
    simp only [ofJson?, reordered.namesReadable_eq, line, column, others.membersBufferable_eq,
      Fault.ofMembers?_reordered others]

theorem Diagnostic.ofJson?_eq_none {name : String} {json : Json}
    (inside : (some name, json) ∈ members) (other : name ∉ fields) (scalar : json.IsScalar)
    (lost : json.isBufferable 0 = false) (room : Nat) : ofJson? room (.object members) = none := by
  have kept : (some name, json) ∈
      members.filter (fun m => m.1 != some "line" && m.1 != some "column") := by
    refine List.mem_filter.mpr ⟨inside, ?_⟩
    simp only [fields, List.mem_cons, List.not_mem_nil, or_false, not_or] at other
    simp [other]
  have refused : Json.membersBufferable (room - 1)
      (members.filter (fun m => m.1 != some "line" && m.1 != some "column")) = false := by
    rw [Json.membersBufferable_eq_all, List.all_eq_false]
    refine ⟨_, kept, ?_⟩
    rw [Json.isBufferable_of_scalar scalar, lost, Bool.and_false]
    exact Bool.false_ne_true
  simp only [ofJson?, refused, Bool.and_false, Bool.false_eq_true, if_false]

end Faults

section Reports

open Decoding

theorem Decoding.list?_itemsVary {α : Type} {item? : Json → Option α} {vary : Json → Json → Prop}
    {json other : Json} (varies : Json.ItemsVary vary json other)
    (same : ∀ {json other}, vary json other → item? other = item? json) :
    list? item? other = list? item? json := by
  cases varies with
  | same => rfl
  | array each =>
    rw [list?, list?]
    induction each with
    | nil => rfl
    | cons first _ ih => rw [List.mapM_cons, List.mapM_cons, same first, ih]

namespace Report

def fields : List String := ["source", "tokens", "errors"]

/-- A member of the same name, whose tokens or faults vary if it is the list of these. -/
structure MemberVaries (m other : Option String × Json) : Prop where
  name : other.1 = m.1
  tokens : m.1 = some "tokens" → Json.ItemsVary Token.Varies m.2 other.2
  errors : m.1 = some "errors" → Json.ItemsVary Diagnostic.Varies m.2 other.2
  rest : m.1 ≠ some "tokens" → m.1 ≠ some "errors" → other.2 = m.2

/-- The same report, but for the order of the members in its objects, the report itself, its tokens
and its faults, and for members that these do not know. -/
inductive Varies : Json → Json → Prop
  | same (json : Json) : Varies json json
  | array (source : Json) {tokens others errors failures : Json}
    (tokensVary : Json.ItemsVary Token.Varies tokens others)
    (errorsVary : Json.ItemsVary Diagnostic.Varies errors failures) :
    Varies (.array [source, tokens, errors]) (.array [source, others, failures])
  | object {members varied others : List (Option String × Json)}
    (each : List.Forall₂ MemberVaries members varied)
    (reordered : Json.Reordered fields Json.IsScalar varied others) :
    Varies (.object members) (.object others)

theorem ofFields?_varies {source tokens others errors failures : Json}
    (tokensVary : Json.ItemsVary Token.Varies tokens others)
    (errorsVary : Json.ItemsVary Diagnostic.Varies errors failures) (room : Nat) :
    ofFields? room source others failures = ofFields? room source tokens errors := by
  have tokensSame := list?_itemsVary tokensVary Token.ofJson?_varies
  have errorsSame := list?_itemsVary errorsVary (Diagnostic.ofJson?_varies · (room - 1))
  rw [ofFields?, ofFields?, tokensSame, errorsSame]

theorem field?_forall₂ {members varied : List (Option String × Json)}
    (each : List.Forall₂ MemberVaries members varied) (name : String) :
    (Json.field? members name = none ∧ Json.field? varied name = none) ∨
      ∃ json other, Json.field? members name = some json ∧ Json.field? varied name = some other ∧
        MemberVaries (some name, json) (some name, other) := by
  have found : List.Forall₂ MemberVaries (members.filter (fun m => m.1 == some name))
      (varied.filter (fun m => m.1 == some name)) := by
    induction each with
    | nil => exact .nil
    | @cons m other _ _ first _ ih =>
      rw [List.filter_cons, List.filter_cons, first.name]
      split
      · exact .cons first ih
      · exact ih
  have named : ∀ m ∈ members.filter (fun m => m.1 == some name), m.1 = some name :=
    fun m inside => beq_iff_eq.mp (List.mem_filter.mp inside).2
  rw [Json.field?, Json.field?]
  generalize members.filter (fun m => m.1 == some name) = known at found named ⊢
  generalize varied.filter (fun m => m.1 == some name) = others at found ⊢
  cases found with
  | nil => exact .inl ⟨rfl, rfl⟩
  | @cons m other _ _ first rest =>
    cases rest with
    | cons => exact .inl ⟨rfl, rfl⟩
    | nil =>
      obtain ⟨_, json⟩ := m
      obtain ⟨_, other⟩ := other
      cases named _ List.mem_cons_self
      cases first.name
      exact .inr ⟨json, other, rfl, rfl, first⟩

theorem namesReadable_forall₂ {members varied : List (Option String × Json)}
    (each : List.Forall₂ MemberVaries members varied) :
    Json.namesReadable varied = Json.namesReadable members := by
  rw [Json.namesReadable, Json.namesReadable]
  induction each with
  | nil => rfl
  | cons first _ ih => rw [List.all_cons, List.all_cons, first.name, ih]

theorem ofJson?_varies {json other : Json} (varies : Varies json other) (room : Nat) :
    ofJson? room other = ofJson? room json := by
  cases varies with
  | same => rfl
  | array source tokensVary errorsVary => exact ofFields?_varies tokensVary errorsVary _
  | object each reordered =>
    have readable := reordered.namesReadable_eq.trans (namesReadable_forall₂ each)
    have source := reordered.field?_eq "source" (by decide)
    have tokens := reordered.field?_eq "tokens" (by decide)
    have errors := reordered.field?_eq "errors" (by decide)
    rw [ofJson?, ofJson?, readable, source, tokens, errors]
    obtain ⟨noSource, noOther⟩ | ⟨_, _, first, second, sourceVaries⟩ := field?_forall₂ each "source"
    · rw [noSource, noOther]
      rfl
    obtain ⟨noTokens, noOthers⟩ | ⟨_, _, known, varied, tokensVary⟩ := field?_forall₂ each "tokens"
    · rw [noTokens, noOthers, first, second]
      rfl
    obtain ⟨noErrors, noOthers⟩ | ⟨_, _, found, changed, errorsVary⟩ := field?_forall₂ each "errors"
    · rw [noErrors, noOthers, first, second, known, varied]
      rfl
    have sameSource := sourceVaries.rest (by simp) (by simp)
    dsimp only at sameSource
    rw [first, second, known, varied, found, changed, sameSource]
    simp only [bind, Option.bind,
      ofFields?_varies (tokensVary.tokens rfl) (errorsVary.errors rfl)]

/-- Neither the order of the members in the objects of a report nor members that these do not know
change what is decoded, if those that are added are scalars, and in a fault such that can be set
aside. A fault with another scalar that it does not know is never decoded. -/
theorem decoding_of_varied :
    (∀ json other, Varies json other → ∀ room, ofJson? room other = ofJson? room json) ∧
    (∀ text other json varied, Json.read? text = some json → Json.read? other = some varied →
      Varies json varied → read? other = read? text) ∧
    ∀ members name json, (some name, json) ∈ members → name ∉ Diagnostic.fields →
      json.IsScalar → json.isBufferable 0 = false →
        ∀ room, Diagnostic.ofJson? room (.object members) = none := by
  refine ⟨fun json other varies => ofJson?_varies varies, ?_,
    fun members name json => Diagnostic.ofJson?_eq_none⟩
  intro text other json varied known found varies
  rw [read?, read?, known, found]
  exact ofJson?_varies varies depthLimit

/-- Every object of a report is turned around and has a further member at its front, of which only
the one in the fault could have been kept. -/
theorem decoding_of_varied_reversed :
    let token := [(some "kind", .ofText "ID"), (some "value", .ofText "x"), (some "line", .ofNat 1),
      (some "column", .ofNat 1)]
    let fault := [(some "kind", .ofText "illegal_character"), (some "column", .ofNat 5),
      (some "line", .ofNat 2), (some "text", .ofText "$")]
    let members (tokens errors : Json) :=
      [(some "source", .ofText "a"), (some "tokens", tokens), (some "errors", errors)]
    let json := Json.object (members (.array [.object token]) (.array [.object fault]))
    let other := Json.object ((some "n", .number "1e999") :: (members
      (.array [.object ((some "s", .string none) :: token.reverse)])
      (.array [.object ((some "z", .number "1e99") :: fault.reverse)])).reverse)
    Varies json other ∧
      ofJson? depthLimit other =
        some ⟨"a", [⟨.identifier, "x", 1, 1⟩], [⟨.illegalCharacter '$', 2, 5⟩]⟩ ∧
      Diagnostic.ofJson? depthLimit (.object ((some "z", .number "1e999") :: fault)) = none := by
  intro token fault members json other
  have turned {fields : List String} {admits : Json → Prop} (name : String) (added : Json)
      (new : name ∉ fields) (admitted : admits added) (known : List (Option String × Json)) :
      Json.Reordered fields admits known ((some name, added) :: known.reverse) := by
    refine ⟨[(some name, added)], ?_, fun m inside => ?_⟩
    · exact ((List.reverse_perm known).cons _).trans (List.perm_append_singleton _ _).symm
    · rw [List.mem_singleton.mp inside]
      exact ⟨name, rfl, new, admitted⟩
  have tokens : Json.ItemsVary Token.Varies (.array [.object token])
      (.array [.object ((some "s", .string none) :: token.reverse)]) :=
    .array (.cons (.object (turned "s" _ (by decide) trivial token)) .nil)
  have errors : Json.ItemsVary Diagnostic.Varies (.array [.object fault])
      (.array [.object ((some "z", .number "1e99") :: fault.reverse)]) :=
    .array (.cons (.object (turned "z" _ (by decide) (by decide +kernel) fault)) .nil)
  have each : List.Forall₂ MemberVaries
      (members (.array [.object token]) (.array [.object fault]))
      (members (.array [.object ((some "s", .string none) :: token.reverse)])
        (.array [.object ((some "z", .number "1e99") :: fault.reverse)])) := by
    refine .cons ⟨rfl, nofun, nofun, fun _ _ => rfl⟩ (.cons ⟨rfl, fun _ => tokens, ?_, ?_⟩
      (.cons ⟨rfl, ?_, fun _ => errors, ?_⟩ .nil))
    · simp
    · exact fun apart => absurd rfl apart
    · simp
    · exact fun _ apart => absurd rfl apart
  have varies : Varies json other := .object each (turned "n" _ (by decide) trivial _)
  have decoded : ofJson? depthLimit json =
      some ⟨"a", [⟨.identifier, "x", 1, 1⟩], [⟨.illegalCharacter '$', 2, 5⟩]⟩ := by
    decide +kernel
  exact ⟨varies, (decoding_of_varied.1 json other varies depthLimit).trans decoded,
    decoding_of_varied.2.2 _ "z" (.number "1e999") List.mem_cons_self (by decide) trivial
      (by decide +kernel) depthLimit⟩

theorem decoding_with_large_number :
    let fault := "\x7b\"kind\":\"empty_rune\",\"line\":1,\"column\":2"
    let text (fault : String) :=
      "\x7b\"source\":\"a.go\",\"tokens\":[],\"errors\":[" ++ fault ++ "\x7d]\x7d"
    read? (text fault) = some ⟨"a.go", [], [⟨.emptyRune, 1, 2⟩]⟩ ∧
      read? (text (fault ++ ",\"x\":1e999")) = none := by
  decide +kernel

end Report

end Reports

end LexicalReport
