import LexicalReport.Proofs.Scan.MaximalMunch
import LexicalReport.Proofs.Scan.Separation
import LexicalReport.Report.Basic

/-! Kinds and values agree. What a token reads tells its kind, whatever source it was cut from:
words are told apart by the table of reserved words, operators are entries of their table, and
neither is ever the value of a literal. So the counts of a report can be taken from the values
alone. -/

namespace LexicalReport

namespace Token.Kind

def isReserved (value : String) : Bool :=
  keywords.any (fun entry => entry.1 == value)

def isTruth (value : String) : Bool :=
  value == "true" || value == "false"

/-- The kinds of tokens that are neither words nor operators. -/
def isLiteral (kind : Kind) : Bool :=
  kind == .intLiteral || kind == .floatLiteral || kind == .stringLiteral || kind == .runeLiteral

section Words

variable {value : String} {kind : Kind}

theorem isReserved_of_mem (listed : (value, kind) ∈ keywords) : isReserved value = true :=
  List.any_eq_true.mpr ⟨_, listed, beq_self_eq_true value⟩

theorem isKeyword_of_mem (listed : (value, kind) ∈ keywords) : kind.isKeyword = true :=
  List.any_eq_true.mpr ⟨_, listed, beq_self_eq_true kind⟩

theorem ofWord_of_mem (listed : (value, kind) ∈ keywords) : ofWord value = kind := by
  have each : ∀ entry ∈ keywords, ofWord entry.1 = entry.2 := by decide
  exact each _ listed

theorem ofWord_cases (value : String) :
    (isTruth value = true ∧ isReserved value = false ∧ ofWord value = .boolLiteral) ∨
    (isTruth value = false ∧ isReserved value = true ∧ (value, ofWord value) ∈ keywords) ∨
    (isTruth value = false ∧ isReserved value = false ∧ ofWord value = .identifier) := by
  by_cases truth : value = "true" ∨ value = "false"
  · left
    obtain rfl | rfl := truth <;> decide
  · have other : isTruth value = false := by simpa [isTruth] using truth
    right
    rw [other, ofWord, if_neg truth]
    cases found : keywords.find? (fun entry => entry.1 == value) with
    | some entry =>
      have same := List.find?_some found
      have listed := List.mem_of_find?_eq_some found
      obtain rfl := beq_iff_eq.mp same
      exact .inl ⟨rfl, isReserved_of_mem listed, listed⟩
    | none =>
      have absent : isReserved value = false :=
        List.any_eq_false.mpr (List.find?_eq_none.mp found)
      exact .inr ⟨rfl, absent, rfl⟩

theorem isKeyword_ofWord (value : String) : (ofWord value).isKeyword = isReserved value := by
  obtain ⟨-, reserved, kind⟩ | ⟨-, reserved, listed⟩ | ⟨-, reserved, kind⟩ := ofWord_cases value
  · rw [reserved, kind]
    rfl
  · rw [reserved, isKeyword_of_mem listed]
  · rw [reserved, kind]
    rfl

theorem ofWord_eq_boolLiteral_iff : ofWord value = .boolLiteral ↔ isTruth value = true := by
  obtain ⟨truth, -, kind⟩ | ⟨truth, -, listed⟩ | ⟨truth, -, kind⟩ := ofWord_cases value
  · simp [truth, kind]
  · have apart : ofWord value ≠ .boolLiteral := by
      intro same
      have keyword := isKeyword_of_mem listed
      rw [same] at keyword
      exact absurd keyword (by decide)
    simp [truth, apart]
  · simp [truth, kind]

theorem ofWord_eq_identifier_iff :
    ofWord value = .identifier ↔ isReserved value = false ∧ isTruth value = false := by
  obtain ⟨truth, -, kind⟩ | ⟨-, reserved, listed⟩ | ⟨truth, reserved, kind⟩ := ofWord_cases value
  · simp [truth, kind]
  · have apart : ofWord value ≠ .identifier := by
      intro same
      have keyword := isKeyword_of_mem listed
      rw [same] at keyword
      exact absurd keyword (by decide)
    simp [reserved, apart]
  · simp [truth, reserved, kind]

end Words

end Token.Kind

namespace Scan

open Token (Kind)
open Token.Kind (isReserved isTruth isLiteral)

def beginsWord (value : String) : Bool :=
  value.toList.head?.any isWordStart

/-- Whether a text can only be the value of an identifier. -/
def isIdentifier (value : String) : Bool :=
  beginsWord value && !isReserved value && !isTruth value

theorem isLiteral_eq (kind : Kind) :
    isLiteral kind = !(isWordKind kind || isOperatorKind kind) := by
  cases kind <;> rfl

theorem beginsWord_of_reserved {value : String} (reserved : isReserved value = true) :
    beginsWord value = true := by
  have each : ∀ entry ∈ Kind.keywords, beginsWord entry.1 = true := by decide +kernel
  obtain ⟨entry, listed, same⟩ := List.any_eq_true.mp reserved
  rw [← beq_iff_eq.mp same]
  exact each entry listed

theorem beginsWord_of_truth {value : String} (truth : isTruth value = true) :
    beginsWord value = true := by
  rw [isTruth, Bool.or_eq_true, beq_iff_eq, beq_iff_eq] at truth
  obtain rfl | rfl := truth <;> decide +kernel

theorem leadOf_of_isWordStart {c : Char} (starts : isWordStart c = true) (next : Option Char) :
    leadOf c next = .word := by
  have solid : isSkipped c = false := by
    by_contra skipped
    rw [Bool.not_eq_false] at skipped
    have part := Cursor.isWordPart_of_isWordStart starts
    rw [breaks_isWordPart c skipped] at part
    cases part
  have slash : c ≠ '/' := by
    rintro rfl
    exact absurd starts (by decide +kernel)
  simp [leadOf, solid, slash, starts]

theorem StandsAlone.contentAt {kind : Kind} {text : List Char} (alone : StandsAlone kind text) :
    ∃ c rest, text = c :: rest ∧ contentAt c rest = (.token kind, rest.length) := by
  have cut := alone [] nofun
  rw [List.append_nil, segments_nil] at cut
  cases text with
  | nil =>
    rw [segments_nil] at cut
    cases cut
  | cons c rest =>
    rw [segments] at cut
    obtain ⟨first, -⟩ := List.cons.inj cut
    obtain ⟨content, whole⟩ := Segment.mk.inj first
    have bound := contentAt_le c rest
    have length := List.length_take_of_le bound
    rw [(List.cons.inj whole).2] at length
    exact ⟨c, rest, rfl, Prod.ext content length.symm⟩

theorem StandsAlone.unique {kind other : Kind} {text : List Char} (alone : StandsAlone kind text)
    (again : StandsAlone other text) : kind = other := by
  have same := (alone [] nofun).symm.trans (again [] nofun)
  obtain ⟨first, -⟩ := List.cons.inj same
  exact Content.token.inj (Segment.mk.inj first).1

section Told

variable {kind : Kind} {value : String} (alone : StandsAlone kind value.toList)
include alone

theorem StandsAlone.isWordKind_eq : isWordKind kind = beginsWord value := by
  obtain ⟨c, rest, text, found⟩ := alone.contentAt
  have begins : beginsWord value = isWordStart c := by
    rw [beginsWord, text]
    rfl
  rw [begins, Bool.eq_iff_iff]
  constructor
  · intro word
    exact (contentAt_word (congrArg Prod.fst found) word).1
  · intro starts
    have opens := (leadOf c rest.head?).opens_content c rest
    rw [← contentAt_eq_lead, found, leadOf_of_isWordStart starts] at opens
    obtain ⟨_, same, word⟩ := opens
    cases same
    exact word

theorem StandsAlone.kind_eq_ofWord (begins : beginsWord value = true) :
    kind = Kind.ofWord value := by
  obtain ⟨c, rest, text, found⟩ := alone.contentAt
  have starts : isWordStart c = true := by
    rw [beginsWord, text] at begins
    exact begins
  rw [contentAt_eq_lead, leadOf_of_isWordStart starts, Lead.content, wordContent] at found
  obtain ⟨content, length⟩ := Prod.mk.inj found
  have whole : String.ofList (c :: rest.take (wordLength rest)) = value := by
    rw [length, List.take_length, ← text, String.ofList_toList]
  rw [whole] at content
  exact (Content.token.inj content).symm

theorem StandsAlone.isOperatorKind_iff :
    isOperatorKind kind = true ↔ (value.toList, kind) ∈ operators := by
  constructor
  · intro operator
    obtain ⟨c, rest, text, found⟩ := alone.contentAt
    have longest := (contentAt_operator (congrArg Prod.fst found) operator).1
    rw [found, List.take_length, ← text] at longest
    exact longest.listed
  · intro listed
    exact List.any_eq_true.mpr ⟨_, listed, beq_self_eq_true kind⟩

end Told

structure ToldByValue (t : Token) : Prop where
  keyword : t.kind.isKeyword = true ↔ (t.value, t.kind) ∈ Kind.keywords
  reserved : ∀ kind, (t.value, kind) ∈ Kind.keywords → t.kind = kind
  truth : t.kind = .boolLiteral ↔ t.value = "true" ∨ t.value = "false"
  identifier : t.kind = .identifier ↔
    beginsWord t.value = true ∧ isReserved t.value = false ∧ isTruth t.value = false
  operator : isWordKind t.kind = false ∧ isLiteral t.kind = false ↔
    (t.value.toList, t.kind) ∈ operators

section Tokens

variable {source : String} {t : Token} (inside : t ∈ (ofText source).tokens)
include inside

theorem kind_of_token : beginsWord t.value = true ∧ t.kind = Kind.ofWord t.value ∨
    beginsWord t.value = false ∧ isWordKind t.kind = false := by
  have alone := standsAlone_of_token inside
  cases begins : beginsWord t.value with
  | true => exact .inl ⟨rfl, alone.kind_eq_ofWord begins⟩
  | false => exact .inr ⟨rfl, alone.isWordKind_eq.trans begins⟩

theorem isKeyword_of_token : t.kind.isKeyword = isReserved t.value := by
  obtain ⟨-, kind⟩ | ⟨begins, other⟩ := kind_of_token inside
  · rw [kind, Kind.isKeyword_ofWord]
  · have absent : isReserved t.value = false := by
      by_contra reserved
      rw [beginsWord_of_reserved (Bool.not_eq_false _ ▸ reserved)] at begins
      cases begins
    rw [isWordKind, Bool.or_eq_false_iff, Bool.or_eq_false_iff] at other
    rw [absent, other.1.1]

theorem identifier_of_token : t.kind = .identifier ↔
    beginsWord t.value = true ∧ isReserved t.value = false ∧ isTruth t.value = false := by
  obtain ⟨begins, kind⟩ | ⟨begins, other⟩ := kind_of_token inside
  · rw [kind, Kind.ofWord_eq_identifier_iff, begins]
    simp
  · have apart : t.kind ≠ .identifier := by
      intro same
      rw [same] at other
      cases other
    simp [apart, begins]

theorem truth_of_token : t.kind = .boolLiteral ↔ isTruth t.value = true := by
  obtain ⟨-, kind⟩ | ⟨begins, other⟩ := kind_of_token inside
  · rw [kind, Kind.ofWord_eq_boolLiteral_iff]
  · have apart : t.kind ≠ .boolLiteral := by
      intro same
      rw [same] at other
      cases other
    have absent : isTruth t.value ≠ true := by
      intro truth
      rw [beginsWord_of_truth truth] at begins
      cases begins
    exact iff_of_false apart absent

theorem kind_eq_of_reserved {kind : Kind} (listed : (t.value, kind) ∈ Kind.keywords) :
    t.kind = kind := by
  have starts := beginsWord_of_reserved (Kind.isReserved_of_mem listed)
  obtain ⟨-, same⟩ | ⟨begins, -⟩ := kind_of_token inside
  · rw [same, Kind.ofWord_of_mem listed]
  · rw [begins] at starts
    cases starts

theorem toldByValue : ToldByValue t where
  keyword := by
    constructor
    · intro keyword
      rw [isKeyword_of_token inside, isReserved, List.any_eq_true] at keyword
      obtain ⟨⟨word, kind⟩, listed, same⟩ := keyword
      obtain rfl : word = t.value := beq_iff_eq.mp same
      rwa [kind_eq_of_reserved inside listed]
    · exact Kind.isKeyword_of_mem
  reserved := fun _ => kind_eq_of_reserved inside
  truth := by
    rw [truth_of_token inside, isTruth, Bool.or_eq_true, beq_iff_eq, beq_iff_eq]
  identifier := identifier_of_token inside
  operator := by
    rw [← (standsAlone_of_token inside).isOperatorKind_iff, isLiteral_eq]
    cases operator : isOperatorKind t.kind with
    | true => simp [isWordKind_of_isOperatorKind operator]
    | false => simp

end Tokens

theorem summary_by_values (name source : String) :
    (Report.ofSource name source).summary.keywords =
        (Report.ofSource name source).tokens.countP (fun t => isReserved t.value) ∧
      (Report.ofSource name source).summary.identifiers =
        (Report.ofSource name source).tokens.countP (fun t => isIdentifier t.value) := by
  constructor
  · refine List.countP_congr fun t inside => ?_
    rw [isKeyword_of_token inside]
  · refine List.countP_congr fun t inside => ?_
    rw [beq_iff_eq, identifier_of_token inside, isIdentifier, Bool.and_eq_true, Bool.and_eq_true,
      Bool.not_eq_true', Bool.not_eq_true', and_assoc]

/-- The value of a token tells whether it is a word, which one, and whether it is an operator; the
counts of a report are those of its values; and tokens that read alike are of one kind, whatever
sources they are from. -/
theorem values_tell_kinds :
    (∀ source, ∀ t ∈ (ofText source).tokens, ToldByValue t) ∧
    (∀ name source, let r := Report.ofSource name source
      r.summary.keywords = r.tokens.countP (fun t => isReserved t.value) ∧
        r.summary.identifiers = r.tokens.countP (fun t => isIdentifier t.value)) ∧
    ∀ source other, ∀ t ∈ (ofText source).tokens, ∀ u ∈ (ofText other).tokens,
      t.value = u.value → t.kind = u.kind := by
  refine ⟨fun source t inside => toldByValue inside, summary_by_values, ?_⟩
  intro source other t inside u among same
  have again := standsAlone_of_token among
  rw [← same] at again
  exact (standsAlone_of_token inside).unique again

theorem values_tell_kinds_together :
    let first : Token := ⟨.kwGo, "go", 1, 1⟩
    let t : Token := ⟨.bitClearAssign, "&^=", 1, 6⟩
    let u : Token := ⟨.bitClearAssign, "&^=", 2, 1⟩
    [first, t] ⊆ (ofText "go...&^=true").tokens ∧ u ∈ (ofText "'x\n&^= goto").tokens ∧
      ToldByValue first ∧ ToldByValue t ∧ t.kind = u.kind := by
  intro first t u
  have inside : [first, t] ⊆ (ofText "go...&^=true").tokens := by decide +kernel
  have among : u ∈ (ofText "'x\n&^= goto").tokens := by decide +kernel
  obtain ⟨told, -, alike⟩ := values_tell_kinds
  have second : t ∈ (ofText "go...&^=true").tokens := inside (by decide)
  exact ⟨inside, among, told _ first (inside (by decide)), told _ t second,
    alike _ _ t second u among rfl⟩

end Scan

end LexicalReport
