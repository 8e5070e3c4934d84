import LexicalReport.Proofs.Scan.Lead
import LexicalReport.Proofs.Scan.Places

/-! Operators and words take as much as they can. The first spelling of the table that begins a text
is the longest that does, and a word goes on as far as its characters do. What a token is tells how
it began, so this holds of every token of a scan; and a character is illegal only if nothing could
begin with it. -/

namespace LexicalReport.Scan

open Token (Kind)

structure LongestSpelling (cs spelling : List Char) (kind : Kind) : Prop where
  listed : (spelling, kind) ∈ operators
  begins : spelling <+: cs
  longest : ∀ entry ∈ operators, entry.1 <+: cs → entry.1.length ≤ spelling.length

def isOperatorKind (kind : Kind) : Bool :=
  operators.any (fun entry => entry.2 == kind)

def isWordKind (kind : Kind) : Bool :=
  kind.isKeyword || kind == .identifier || kind == .boolLiteral

/-- A token of a scan, and the number of characters before it. -/
def TokenAt (source : String) (i : Nat) (t : Token) : Prop :=
  ∃ x, (i, x) ∈ offsets 0 (segments source.toList) ∧
    Located.token? ⟨Place.first.after (source.toList.take i), x⟩ = some t

def ErrorAt (source : String) (i : Nat) (d : Diagnostic) : Prop :=
  ∃ x, (i, x) ∈ offsets 0 (segments source.toList) ∧
    Located.diagnostic? ⟨Place.first.after (source.toList.take i), x⟩ = some d

/-- No comment begins a text, and no number after a point. -/
structure OpensNothing (cs : List Char) : Prop where
  line : ¬ ['/', '/'] <+: cs
  block : ¬ ['/', '*'] <+: cs
  fraction : ∀ d, d.isDigit = true → ¬ ['.', d] <+: cs

structure BeginsNothing (c : Char) : Prop where
  skipped : isSkipped c = false
  word : isWordStart c = false
  digit : c.isDigit = false
  quotes : c ≠ '"' ∧ c ≠ '\'' ∧ c ≠ '\x60'
  spelling : ∀ entry ∈ operators, entry.1.head? ≠ some c

/-! The table of operators. -/

theorem operators_descending :
    operators.Pairwise (fun first second => second.1.length ≤ first.1.length) := by
  decide

theorem operators_distinct : (operators.map Prod.fst).Nodup := by
  decide

theorem operators_single :
    ∀ entry ∈ operators, ∃ single ∈ operators, single.1 = entry.1.take 1 := by
  decide

theorem operatorAt_eq_none_iff {cs : List Char} :
    operatorAt cs = none ↔ ∀ entry ∈ operators, ¬ entry.1 <+: cs := by
  simp only [operatorAt, Option.map_eq_none_iff, List.find?_eq_none, List.isPrefixOf_iff_prefix]

theorem longestSpelling_of_operatorAt {cs : List Char} {kind : Kind} {n : Nat}
    (found : operatorAt cs = some (kind, n)) :
    ∃ spelling, LongestSpelling cs spelling kind ∧ spelling.length = n := by
  obtain ⟨⟨spelling, k⟩, first, same⟩ := Option.map_eq_some_iff.mp found
  cases same
  obtain ⟨spelled, earlier, later, whole, none⟩ := List.find?_eq_some_iff_append.mp first
  refine ⟨spelling, ⟨?_, List.isPrefixOf_iff_prefix.mp spelled, fun entry listed begins => ?_⟩, rfl⟩
  · rw [whole]
    exact List.mem_append_right _ List.mem_cons_self
  · have descending := operators_descending
    rw [whole] at listed descending
    rcases List.mem_append.mp listed with before | here
    · have absent := none entry before
      rw [List.isPrefixOf_iff_prefix.mpr begins] at absent
      cases absent
    · rcases List.mem_cons.mp here with rfl | after
      · exact Nat.le_refl _
      · exact (List.pairwise_cons.mp (List.pairwise_append.mp descending).2.1).1 entry after

theorem LongestSpelling.unique {cs first second : List Char} {k l : Kind}
    (one : LongestSpelling cs first k) (two : LongestSpelling cs second l) :
    first = second ∧ k = l := by
  have same : first = second :=
    (List.prefix_of_prefix_length_le one.begins two.begins
      (two.longest _ one.listed one.begins)).eq_of_length_le
      (one.longest _ two.listed two.begins)
  have entries := List.inj_on_of_nodup_map operators_distinct one.listed two.listed same
  exact ⟨same, congrArg Prod.snd entries⟩

theorem operatorAt_eq_some_iff {cs : List Char} {kind : Kind} {n : Nat} :
    operatorAt cs = some (kind, n) ↔
      ∃ spelling, LongestSpelling cs spelling kind ∧ spelling.length = n := by
  refine ⟨longestSpelling_of_operatorAt, ?_⟩
  rintro ⟨spelling, longest, rfl⟩
  cases found : operatorAt cs with
  | none => exact absurd longest.begins (operatorAt_eq_none_iff.mp found _ longest.listed)
  | some entry =>
    obtain ⟨other, best, length⟩ := longestSpelling_of_operatorAt found
    obtain ⟨rfl, kinds⟩ := longest.unique best
    rw [kinds, length]

example : operatorAt ['&', '^', '=', '='] = some (.bitClearAssign, 3) := by decide

/-! What a token is tells how it began. -/

theorem isWordKind_ofWord (word : String) : isWordKind (Kind.ofWord word) = true := by
  unfold Kind.ofWord
  split
  · rfl
  · split
    · rename_i entry found
      have reserved : entry.2.isKeyword = true :=
        List.any_eq_true.mpr ⟨entry, List.mem_of_find?_eq_some found, beq_self_eq_true _⟩
      rw [isWordKind, reserved]
      rfl
    · rfl

theorem isOperatorKind_of_operatorAt {cs : List Char} {kind : Kind} {n : Nat}
    (found : operatorAt cs = some (kind, n)) : isOperatorKind kind = true := by
  obtain ⟨spelling, listed, -⟩ := operatorAt_eq_some found
  exact List.any_eq_true.mpr ⟨_, listed, beq_self_eq_true _⟩

theorem isWordKind_of_isOperatorKind {kind : Kind} (operator : isOperatorKind kind = true) :
    isWordKind kind = false := by
  have apart : ∀ entry ∈ operators, isWordKind entry.2 = false := by decide
  obtain ⟨entry, listed, same⟩ := List.any_eq_true.mp operator
  rw [← beq_iff_eq.mp same]
  exact apart entry listed

namespace Lead

def Opens : Lead → Content → Prop
  | skipped, x => x = .skipped
  | line, x => x = .comment
  | block, x => x = .comment ∨ x = .fault .unterminatedComment
  | word, x => ∃ kind, x = .token kind ∧ isWordKind kind = true
  | number, x => x = .token .intLiteral ∨ x = .token .floatLiteral ∨
      ∃ text, x = .fault (.malformedNumber text)
  | string, x | raw, x => x = .token .stringLiteral ∨ x = .fault .unterminatedString
  | rune, x => x = .token .runeLiteral ∨ x = .fault .unterminatedRune ∨ x = .fault .emptyRune
  | operator, x => (∃ kind, x = .token kind ∧ isOperatorKind kind = true) ∨
      ∃ c, x = .fault (.illegalCharacter c)

theorem opens_quoted (quote : Char) (kind : Kind) (unclosed : Fault) (rest : List Char) :
    (quotedContent quote kind unclosed rest).1 = .token kind ∨
      (quotedContent quote kind unclosed rest).1 = .fault unclosed := by
  unfold quotedContent
  split
  · exact .inl rfl
  · exact .inr rfl

theorem opens_number (c : Char) (rest : List Char) : number.Opens (numberContent c rest).1 := by
  have kinds : ∀ kind, (numeral (c :: rest)).kind = some kind →
      kind = .intLiteral ∨ kind = .floatLiteral := by
    intro kind found
    rw [numeral_eq] at found
    split at found
    · simp only [radixNumeral] at found
      split at found <;> cases found
      exact .inl rfl
    · simp only [plainNumeral] at found
      split_ifs at found <;> cases found
      · exact .inr rfl
      · exact .inl rfl
  rw [numberContent]
  cases found : (numeral (c :: rest)).kind with
  | none => exact .inr (.inr ⟨_, rfl⟩)
  | some kind =>
    obtain rfl | rfl := kinds kind found
    · exact .inl rfl
    · exact .inr (.inl rfl)

theorem opens_content (lead : Lead) (c : Char) (rest : List Char) :
    lead.Opens (lead.content c rest).1 := by
  cases lead with
  | skipped | line => exact rfl
  | block =>
    rw [content, blockContent]
    split
    · exact .inl rfl
    · exact .inr rfl
  | word => exact ⟨_, rfl, isWordKind_ofWord _⟩
  | number => exact opens_number c rest
  | string => exact opens_quoted _ _ _ rest
  | raw =>
    rw [content, rawContent]
    split
    · exact .inl rfl
    · exact .inr rfl
  | rune =>
    rw [content, runeContent]
    split
    · exact .inr (.inr rfl)
    · obtain closed | open_ := opens_quoted '\'' .runeLiteral .unterminatedRune rest
      · exact .inl closed
      · exact .inr (.inl open_)
  | operator =>
    rw [content, operatorContent]
    split
    · exact .inl ⟨_, rfl, isOperatorKind_of_operatorAt ‹_›⟩
    · exact .inr ⟨c, rfl⟩

theorem token_cases {lead : Lead} {kind : Kind} (opens : lead.Opens (.token kind)) :
    (lead = .word ∧ isWordKind kind = true) ∨ (lead = .operator ∧ isOperatorKind kind = true) ∨
      (isWordKind kind = false ∧ isOperatorKind kind = false) := by
  cases lead with
  | skipped | line => cases opens
  | block => obtain same | same := opens <;> cases same
  | word =>
    obtain ⟨_, same, word⟩ := opens
    cases same
    exact .inl ⟨rfl, word⟩
  | number =>
    obtain same | same | ⟨_, same⟩ := opens <;> cases same
    · exact .inr (.inr ⟨rfl, rfl⟩)
    · exact .inr (.inr ⟨rfl, rfl⟩)
  | string | raw =>
    obtain same | same := opens <;> cases same
    exact .inr (.inr ⟨rfl, rfl⟩)
  | rune =>
    obtain same | same | same := opens <;> cases same
    exact .inr (.inr ⟨rfl, rfl⟩)
  | operator =>
    obtain ⟨_, same, operator⟩ | ⟨_, same⟩ := opens <;> cases same
    exact .inr (.inl ⟨rfl, operator⟩)

theorem eq_operator {lead : Lead} {kind : Kind} (opens : lead.Opens (.token kind))
    (operator : isOperatorKind kind = true) : lead = .operator := by
  obtain ⟨-, word⟩ | ⟨same, -⟩ | ⟨-, other⟩ := token_cases opens
  · rw [isWordKind_of_isOperatorKind operator] at word
    cases word
  · exact same
  · rw [operator] at other
    cases other

theorem eq_word {lead : Lead} {kind : Kind} (opens : lead.Opens (.token kind))
    (word : isWordKind kind = true) : lead = .word := by
  obtain ⟨same, -⟩ | ⟨-, operator⟩ | ⟨other, -⟩ := token_cases opens
  · exact same
  · rw [isWordKind_of_isOperatorKind operator] at word
    cases word
  · rw [word] at other
    cases other

theorem eq_operator_of_illegal {lead : Lead} {c : Char}
    (opens : lead.Opens (.fault (.illegalCharacter c))) : lead = .operator := by
  cases lead with
  | skipped | line => cases opens
  | block | string | raw => obtain same | same := opens <;> cases same
  | word =>
    obtain ⟨_, same, -⟩ := opens
    cases same
  | number => obtain same | same | ⟨_, same⟩ := opens <;> cases same
  | rune => obtain same | same | same := opens <;> cases same
  | operator => rfl

end Lead

/-! What begins a text under each lead. -/

theorem leadOf_word {c : Char} {next : Option Char} (lead : leadOf c next = .word) :
    isWordStart c = true := by
  unfold leadOf at lead
  split_ifs at lead
  assumption

theorem leadOf_operator {c : Char} {next : Option Char} (lead : leadOf c next = .operator) :
    (isSkipped c = false ∧ isWordStart c = false ∧ c.isDigit = false ∧
      c ≠ '"' ∧ c ≠ '\'' ∧ c ≠ '\x60') ∧
      ¬ (c = '/' ∧ next = some '/') ∧ ¬ (c = '/' ∧ next = some '*') ∧
      ¬ (c = '.' ∧ next.any Char.isDigit = true) := by
  unfold leadOf at lead
  split_ifs at lead with skipped line block word number string raw rune
  obtain ⟨digit, fraction⟩ := not_or.mp number
  simp only [Bool.not_eq_true] at skipped word digit
  exact ⟨⟨skipped, word, digit, string, rune, raw⟩, line, block, fraction⟩

theorem opensNothing_of_lead {c : Char} {rest : List Char}
    (lead : leadOf c rest.head? = .operator) : OpensNothing (c :: rest) := by
  obtain ⟨-, line, block, fraction⟩ := leadOf_operator lead
  refine ⟨fun begins => line ?_, fun begins => block ?_, fun d digit begins => fraction ?_⟩
  all_goals
    obtain ⟨more, whole⟩ := begins
    cases whole
  · exact ⟨rfl, rfl⟩
  · exact ⟨rfl, rfl⟩
  · exact ⟨rfl, digit⟩

theorem head_ne_of_operatorAt_none {c : Char} {rest : List Char}
    (none : operatorAt (c :: rest) = none) : ∀ entry ∈ operators, entry.1.head? ≠ some c := by
  intro entry listed head
  obtain ⟨single, alone, same⟩ := operators_single entry listed
  obtain ⟨tail, spelling⟩ := List.head?_eq_some_iff.mp head
  rw [spelling] at same
  refine operatorAt_eq_none_iff.mp none single alone ?_
  rw [same]
  exact ⟨rest, rfl⟩

theorem contentAt_operator {c : Char} {rest : List Char} {kind : Kind}
    (found : (contentAt c rest).1 = .token kind) (operator : isOperatorKind kind = true) :
    LongestSpelling (c :: rest) (c :: rest.take (contentAt c rest).2) kind ∧
      OpensNothing (c :: rest) := by
  have opens := (leadOf c rest.head?).opens_content c rest
  rw [contentAt_eq_lead] at found ⊢
  rw [found] at opens
  have lead := Lead.eq_operator opens operator
  refine ⟨?_, opensNothing_of_lead lead⟩
  rw [lead, Lead.content, operatorContent] at found ⊢
  cases spelled : operatorAt (c :: rest) with
  | none =>
    rw [spelled] at found
    cases found
  | some entry =>
    obtain ⟨k, n⟩ := entry
    rw [spelled] at found
    cases found
    obtain ⟨spelling, longest, length⟩ := longestSpelling_of_operatorAt spelled
    have pos := (operatorAt_bounds spelled).1
    have text : spelling = c :: rest.take (n - 1) := by
      rw [List.prefix_iff_eq_take.mp longest.begins, length, ← List.take_succ_cons,
        Nat.sub_add_cancel pos]
    rwa [← text]

theorem contentAt_word {c : Char} {rest : List Char} {kind : Kind}
    (found : (contentAt c rest).1 = .token kind) (word : isWordKind kind = true) :
    isWordStart c = true ∧
      c :: rest.take (contentAt c rest).2 = (c :: rest).takeWhile isWordPart := by
  have opens := (leadOf c rest.head?).opens_content c rest
  rw [contentAt_eq_lead] at found ⊢
  rw [found] at opens
  have lead := Lead.eq_word opens word
  have starts := leadOf_word lead
  have part : isWordPart c = true := by
    rw [isWordStart] at starts
    rw [isWordPart, starts, Bool.true_or]
  refine ⟨starts, ?_⟩
  rw [lead, Lead.content, wordContent, wordLength, take_length_takeWhile,
    List.takeWhile_cons_of_pos part]

theorem contentAt_illegal {c d : Char} {rest : List Char}
    (found : (contentAt c rest).1 = .fault (.illegalCharacter d)) :
    d = c ∧ BeginsNothing c := by
  have opens := (leadOf c rest.head?).opens_content c rest
  rw [contentAt_eq_lead] at found
  rw [found] at opens
  have lead := Lead.eq_operator_of_illegal opens
  obtain ⟨⟨skipped, word, digit, quotes⟩, -⟩ := leadOf_operator lead
  rw [lead, Lead.content, operatorContent] at found
  cases spelled : operatorAt (c :: rest) with
  | none =>
    rw [spelled] at found
    cases found
    exact ⟨rfl, skipped, word, digit, quotes, head_ne_of_operatorAt_none spelled⟩
  | some entry =>
    rw [spelled] at found
    cases found

/-! The segments of a scan, at their offsets. -/

theorem segment_eq_of_offset {text : List Char} (before : List Char) {rest : List Char}
    (whole : before ++ rest = text) {x : Nat × Segment}
    (inside : x ∈ offsets before.length (segments rest)) :
    ∃ c after, text.drop x.1 = c :: after ∧
      x.2 = ⟨(contentAt c after).1, c :: after.take (contentAt c after).2⟩ := by
  fun_induction segments rest generalizing before with
  | case1 => cases inside
  | case2 c rest found ih =>
    rcases List.mem_cons.mp inside with rfl | later
    · refine ⟨c, rest, ?_, rfl⟩
      rw [← whole, List.drop_left]
    · rw [← List.length_append] at later
      refine ih _ ?_ later
      rw [← whole, List.append_assoc, List.cons_append, List.take_append_drop]

theorem content_of_token? {x : Located} {t : Token} (found : x.token? = some t) :
    x.segment.content = .token t.kind := by
  rcases x with ⟨p, ⟨_ | _ | kind | f, text⟩⟩ <;> cases found
  rfl

theorem content_of_diagnostic? {x : Located} {d : Diagnostic} (found : x.diagnostic? = some d) :
    x.segment.content = .fault d.fault := by
  rcases x with ⟨p, ⟨_ | _ | kind | f, text⟩⟩ <;> cases found
  rfl

theorem TokenAt.begins {source : String} {i : Nat} {t : Token} (stands : TokenAt source i t) :
    ∃ c rest, source.toList.drop i = c :: rest ∧ (contentAt c rest).1 = .token t.kind ∧
      t.value.toList = c :: rest.take (contentAt c rest).2 := by
  obtain ⟨x, inside, found⟩ := stands
  obtain ⟨-, -, text⟩ := token?_eq_some found
  obtain ⟨c, rest, ahead, rfl⟩ := segment_eq_of_offset [] rfl inside
  exact ⟨c, rest, ahead, content_of_token? found, text⟩

theorem ErrorAt.begins {source : String} {i : Nat} {d : Diagnostic} (stands : ErrorAt source i d) :
    ∃ c rest, source.toList.drop i = c :: rest ∧ (contentAt c rest).1 = .fault d.fault := by
  obtain ⟨x, inside, found⟩ := stands
  obtain ⟨c, rest, ahead, rfl⟩ := segment_eq_of_offset [] rfl inside
  exact ⟨c, rest, ahead, content_of_diagnostic? found⟩

theorem mem_tokens_iff {source : String} {t : Token} :
    t ∈ (ofText source).tokens ↔ ∃ i, TokenAt source i t := by
  simp only [ofText_eq, ofSegments, locate_source, List.filterMap_map, List.mem_filterMap,
    Function.comp_apply, TokenAt, Prod.exists]

theorem mem_errors_iff {source : String} {d : Diagnostic} :
    d ∈ (ofText source).errors ↔ ∃ i, ErrorAt source i d := by
  simp only [ofText_eq, ofSegments, locate_source, List.filterMap_map, List.mem_filterMap,
    Function.comp_apply, ErrorAt, Prod.exists]

theorem TokenAt.operator {source : String} {i : Nat} {t : Token} (stands : TokenAt source i t)
    (operator : isOperatorKind t.kind = true) :
    LongestSpelling (source.toList.drop i) t.value.toList t.kind ∧
      OpensNothing (source.toList.drop i) := by
  obtain ⟨c, rest, ahead, content, text⟩ := stands.begins
  rw [ahead, text]
  exact contentAt_operator content operator

theorem TokenAt.word {source : String} {i : Nat} {t : Token} (stands : TokenAt source i t)
    (word : isWordKind t.kind = true) :
    (∃ c, (source.toList.drop i).head? = some c ∧ isWordStart c = true) ∧
      t.value.toList = (source.toList.drop i).takeWhile isWordPart := by
  obtain ⟨c, rest, ahead, content, text⟩ := stands.begins
  obtain ⟨starts, run⟩ := contentAt_word content word
  rw [ahead, text]
  exact ⟨⟨c, rfl, starts⟩, run⟩

theorem ErrorAt.illegal {source : String} {i : Nat} {d : Diagnostic} (stands : ErrorAt source i d)
    {c : Char} (fault : d.fault = .illegalCharacter c) :
    (source.toList.drop i).head? = some c ∧ BeginsNothing c := by
  obtain ⟨first, rest, ahead, content⟩ := stands.begins
  rw [fault] at content
  obtain ⟨rfl, nothing⟩ := contentAt_illegal content
  rw [ahead]
  exact ⟨rfl, nothing⟩

structure TakesLongest (source : String) : Prop where
  ahead : ∀ s, Cursor.Reached source s → s.operatorAhead? = some (operatorAt s.ahead)
  tokens : ∀ t, t ∈ (ofText source).tokens ↔ ∃ i, TokenAt source i t
  errors : ∀ d, d ∈ (ofText source).errors ↔ ∃ i, ErrorAt source i d
  operators : ∀ i t, TokenAt source i t → isOperatorKind t.kind = true →
    LongestSpelling (source.toList.drop i) t.value.toList t.kind ∧
      OpensNothing (source.toList.drop i)
  words : ∀ i t, TokenAt source i t → isWordKind t.kind = true →
    (∃ c, (source.toList.drop i).head? = some c ∧ isWordStart c = true) ∧
      t.value.toList = (source.toList.drop i).takeWhile isWordPart
  illegal : ∀ i d c, ErrorAt source i d → d.fault = .illegalCharacter c →
    (source.toList.drop i).head? = some c ∧ BeginsNothing c

/-- The operator at the front of a text is the longest of the table, and there is none only where
no spelling begins it; and every scan takes the longest operators and words. -/
theorem takes_longest :
    (∀ cs kind n, operatorAt cs = some (kind, n) ↔
      ∃ spelling, LongestSpelling cs spelling kind ∧ spelling.length = n) ∧
    (∀ cs, operatorAt cs = none ↔ ∀ entry ∈ operators, ¬ entry.1 <+: cs) ∧
    ∀ source, TakesLongest source :=
  ⟨fun _ _ _ => operatorAt_eq_some_iff, fun _ => operatorAt_eq_none_iff, fun _ =>
    { ahead := fun _ reached => Cursor.operatorAhead?_eq reached.inText.1
      tokens := fun _ => mem_tokens_iff
      errors := fun _ => mem_errors_iff
      operators := fun _ _ stands => stands.operator
      words := fun _ _ stands => stands.word
      illegal := fun _ _ _ stands => stands.illegal }⟩

end LexicalReport.Scan
