import LexicalReport.Proofs.Scan.Lead
import LexicalReport.Proofs.Scan.Places

/-! Lines are scanned one by one. If nothing in a text is left open that may go over a line end,
what follows its last line end is scanned as a text of its own, only further down. -/

namespace LexicalReport

def Fault.runsOn (text : List Char) : Fault → Bool
  | .unterminatedComment => true
  | .unterminatedString => text.head? == some '\x60'
  | _ => false

def Token.down (n : Nat) (t : Token) : Token :=
  { t with line := t.line + n.toUInt32 }

def Diagnostic.down (n : Nat) (d : Diagnostic) : Diagnostic :=
  { d with line := d.line + n.toUInt32 }

namespace Scan

open Token (Kind)

def runsOn (source : String) (d : Diagnostic) : Bool :=
  d.fault.runsOn (textAt source.toList d.lineColumn)

namespace Segment

def runsOn (x : Segment) : Bool :=
  x.fault?.any (Fault.runsOn x.text)

end Segment

namespace Place

def down (n : Nat) (p : Place) : Place :=
  ⟨p.line + n.toUInt32, p.before⟩

end Place

def Located.down (n : Nat) (x : Located) : Located :=
  ⟨x.place.down n, x.segment⟩

theorem atBreak_line (y : List Char) : AtBreak ('\n' :: y) := by
  intro c head
  cases head
  rfl

/-- A scan that is one scan followed by another, all of which stands a number of lines further down
than by itself. -/
structure Stacked (n : Nat) (above below whole : Scan) : Prop where
  tokens : whole.tokens = above.tokens ++ below.tokens.map (Token.down n)
  errors : whole.errors = above.errors ++ below.errors.map (Diagnostic.down n)
  token_lines : ∀ t ∈ below.tokens, (t.down n).line.toNat = t.line.toNat + n
  error_lines : ∀ d ∈ below.errors, (d.down n).line.toNat = d.line.toNat + n

theorem quotedLength?_append {quote : Char} {y : List Char} (alone : quotedLength? quote y = none)
    (escaped : quotedLength? quote ('\\' :: y) = none) (cs : List Char) :
    quotedLength? quote (cs ++ y) = quotedLength? quote cs := by
  fun_induction quotedLength? quote cs with
  | case1 => exact alone
  | case2 rest => exact quotedLength?_line quote _
  | case3 => exact escaped
  | case4 more => exact (quotedLength?_escape quote '\n' _).trans (if_pos rfl)
  | case5 d more later _ ih =>
    rw [List.cons_append, List.cons_append, quotedLength?_escape, if_neg later, ih]
  | case6 rest line slash => exact quotedLength?_close line slash _
  | case7 c rest line slash other ih =>
    rw [List.cons_append, quotedLength?_other line slash other, ih]

section LineEnd

variable (cs y : List Char)

theorem lineLength_append_line : lineLength (cs ++ '\n' :: y) = lineLength cs := by
  induction cs with
  | nil => rfl
  | cons c cs ih =>
    by_cases line : c = '\n'
    · rw [List.cons_append, lineLength, lineLength, line]
      rfl
    · rw [List.cons_append, lineLength_cons line, lineLength_cons line, ih]

theorem quotedLength?_append_line (quote : Char) :
    quotedLength? quote (cs ++ '\n' :: y) = quotedLength? quote cs :=
  quotedLength?_append (quotedLength?_line quote y)
    ((quotedLength?_escape quote '\n' y).trans (if_pos rfl)) cs

theorem quotedContent_append_line (quote : Char) (kind : Kind) (unclosed : Fault) :
    quotedContent quote kind unclosed (cs ++ '\n' :: y) =
      quotedContent quote kind unclosed cs := by
  rw [quotedContent, quotedLength?_append_line, lineLength_append_line, quotedContent]

theorem runeContent_append_line : runeContent (cs ++ '\n' :: y) = runeContent cs := by
  rw [runeContent, quotedContent_append_line, runeContent]

theorem rawContent_append_line (closed : (rawContent cs).1 ≠ .fault .unterminatedString) :
    rawContent (cs ++ '\n' :: y) = rawContent cs := by
  cases found : rawLength? '\x60' cs with
  | none =>
    rw [rawContent, found] at closed
    exact absurd rfl closed
  | some n =>
    have same := @rawLength?_shared cs [] n (rawLength?_bounds found).2 '\x60'
    rw [List.append_nil] at same
    rw [rawContent, rawContent, same found, found]

theorem blockContent_append_line (star : cs.head? = some '*')
    (closed : (blockContent cs).1 ≠ .fault .unterminatedComment) :
    blockContent (cs ++ '\n' :: y) = blockContent cs := by
  obtain ⟨more, rfl⟩ := List.head?_eq_some_iff.mp star
  rw [blockContent, List.drop_one, List.tail_cons] at closed
  rw [blockContent, blockContent, List.cons_append, List.drop_one, List.tail_cons, List.drop_one,
    List.tail_cons]
  cases found : blockLength? more with
  | none =>
    rw [found] at closed
    exact absurd rfl closed
  | some n =>
    have same := @blockLength?_shared more [] n (blockLength?_bounds found).2
    rw [List.append_nil] at same
    rw [same found]

end LineEnd

theorem runsOn_cons (f : Fault) (c : Char) (text : List Char) :
    f.runsOn (c :: text) = f.runsOn [c] := by
  cases f <;> rfl

theorem contentAt_append_line {c : Char} {cs : List Char}
    (closed : ∀ f, (contentAt c cs).1 = .fault f → f.runsOn [c] = false) (y : List Char) :
    contentAt c (cs ++ '\n' :: y) = contentAt c cs := by
  rw [contentAt_eq_lead] at closed
  rw [contentAt_eq_lead, contentAt_eq_lead, leadOf_append_break (atBreak_line y)]
  cases lead : leadOf c cs.head? with
  | skipped => rfl
  | line => exact congrArg (Prod.mk _) (lineLength_append_line cs y)
  | block =>
    rw [lead] at closed
    refine blockContent_append_line cs y (leadOf_block lead) fun unclosed => ?_
    cases closed _ unclosed
  | word => exact wordContent_break (atBreak_line y) c cs
  | number => exact numberContent_break (atBreak_line y) (leadOf_number lead)
  | string => exact quotedContent_append_line cs y _ _ _
  | raw =>
    rw [lead, leadOf_raw lead] at closed
    refine rawContent_append_line cs y fun unclosed => ?_
    cases closed _ unclosed
  | rune => exact runeContent_append_line cs y
  | operator => exact operatorContent_break (atBreak_line y) c cs

theorem segments_append_line {a : List Char} (closed : ∀ x ∈ segments a, x.runsOn = false)
    (b : List Char) :
    segments (a ++ '\n' :: b) = segments a ++ ⟨.skipped, ['\n']⟩ :: segments b := by
  fun_induction segments a with
  | case1 => exact segments_of_isSkipped rfl b
  | case2 c rest found ih =>
    have first := closed _ List.mem_cons_self
    have same : contentAt c (rest ++ '\n' :: b) = contentAt c rest := by
      refine contentAt_append_line (fun f fault => ?_) b
      rw [← runsOn_cons f c (rest.take found.2)]
      simpa [Segment.runsOn, Segment.fault?, found, fault] using first
    have bound : found.2 ≤ rest.length := contentAt_le c rest
    have text : rest ++ '\n' :: b = rest.take found.2 ++ (rest.drop found.2 ++ '\n' :: b) := by
      rw [← List.append_assoc, List.take_append_drop]
    rw [List.cons_append, List.cons_append,
      ← ih fun x later => closed x (List.mem_cons_of_mem _ later)]
    rw [text] at same ⊢
    refine segments_of_content ?_
    rw [same, List.length_take_of_le bound]

theorem next_down (n : Nat) (p : Place) (c : Char) : (p.down n).next c = (p.next c).down n := by
  unfold Place.next
  split
  · rw [Place.down, Place.down, UInt32.add_assoc, UInt32.add_comm n.toUInt32, UInt32.add_assoc]
  · rfl

theorem after_down (n : Nat) (p : Place) (text : List Char) :
    (p.down n).after text = (p.after text).down n := by
  induction text generalizing p with
  | nil => rfl
  | cons c text ih => exact (congrArg (Place.after · text) (next_down n p c)).trans (ih _)

theorem locate_down (n : Nat) (p : Place) (xs : List Segment) :
    locate (p.down n) xs = (locate p xs).map (Located.down n) := by
  induction xs generalizing p with
  | nil => rfl
  | cons x xs ih => rw [locate, after_down, ih, locate, List.map_cons, Located.down]

theorem token?_down (n : Nat) (x : Located) : (x.down n).token? = x.token?.map (Token.down n) := by
  rcases x with ⟨p, ⟨_ | _ | kind | f, text⟩⟩ <;> rfl

theorem diagnostic?_down (n : Nat) (x : Located) :
    (x.down n).diagnostic? = x.diagnostic?.map (Diagnostic.down n) := by
  rcases x with ⟨p, ⟨_ | _ | kind | f, text⟩⟩ <;> rfl

theorem line_after (p : Place) (text : List Char) :
    (p.after text).line = p.line + (text.count '\n').toUInt32 := by
  induction text generalizing p with
  | nil => exact (UInt32.add_zero p.line).symm
  | cons c text ih =>
    have step : p.after (c :: text) = (p.next c).after text := rfl
    rw [step, ih, Place.next]
    by_cases line : c = '\n'
    · rw [if_pos line, line, List.count_cons_self, Nat.toUInt32_eq, Nat.toUInt32_eq,
        UInt32.ofNat_add, UInt32.add_assoc, UInt32.add_comm 1]
      rfl
    · rw [if_neg line, List.count_cons_of_ne line]

theorem after_line (a : List Char) :
    (Place.first.after a).after ['\n'] = Place.first.down (1 + a.count '\n') := by
  have line := line_after .first a
  have step : (Place.first.after a).after ['\n'] = ⟨(Place.first.after a).line + 1, 0⟩ := rfl
  rw [step, line, Place.down, Nat.toUInt32_eq, Nat.toUInt32_eq, UInt32.ofNat_add, UInt32.add_assoc,
    UInt32.add_comm _ 1]
  rfl

theorem locate_append_line (a b : List Char) {xs : List Segment}
    (text : xs.flatMap Segment.text = a) :
    locate .first (xs ++ ⟨.skipped, ['\n']⟩ :: segments b) =
      locate .first xs ++ ⟨Place.first.after a, ⟨.skipped, ['\n']⟩⟩ ::
        (locate .first (segments b)).map (Located.down (1 + a.count '\n')) := by
  rw [locate_append, text, locate, after_line, locate_down]

theorem exists_offset {x : Segment} {xs : List Segment} (inside : x ∈ xs) (i : Nat) :
    ∃ j, (j, x) ∈ offsets i xs := by
  induction xs generalizing i with
  | nil => cases inside
  | cons y xs ih =>
    rcases List.mem_cons.mp inside with rfl | later
    · exact ⟨i, List.mem_cons_self⟩
    · obtain ⟨j, found⟩ := ih later (i + y.text.length)
      exact ⟨j, List.mem_cons_of_mem _ found⟩

theorem runsOn_of_prefix {text whole : List Char} (solid : text ≠ []) (stands : text <+: whole)
    (f : Fault) : f.runsOn whole = f.runsOn text := by
  obtain ⟨more, rfl⟩ := stands
  cases text with
  | nil => exact absurd rfl solid
  | cons c text => rw [List.cons_append, runsOn_cons, runsOn_cons f c text]

theorem error_of_fault {source : String} {i : Nat} {x : Segment} {f : Fault}
    (offset : (i, x) ∈ offsets 0 (segments source.toList)) (fault : x.fault? = some f) :
    ∃ d ∈ (ofText source).errors, d.fault = f ∧
      d.lineColumn = (Place.first.after (source.toList.take i)).lineColumn := by
  rw [ofText_eq, locate_source]
  refine ⟨⟨f, _, _⟩, List.mem_filterMap.mpr ⟨_, List.mem_map.mpr ⟨_, offset, rfl⟩, ?_⟩, rfl, rfl⟩
  rcases x with ⟨_ | _ | kind | g, text⟩ <;> cases fault
  rfl

theorem segments_closed {source : String} (short : source.length < 2 ^ 32 - 1)
    (closed : ∀ d ∈ (ofText source).errors, runsOn source d = false) :
    ∀ x ∈ segments source.toList, x.runsOn = false := by
  intro x inside
  obtain ⟨i, offset⟩ := exists_offset inside 0
  obtain ⟨-, stands⟩ := mem_offsets [] (segments_text source.toList) offset
  have solid := (segments_describes source.toList x inside).1
  cases fault : x.fault? with
  | none => rw [Segment.runsOn, fault, Option.any_none]
  | some f =>
    obtain ⟨d, error, same, place⟩ := error_of_fault offset fault
    have ends := closed d error
    rw [runsOn, place, place_take short, textAt_take, same, runsOn_of_prefix solid stands] at ends
    rw [Segment.runsOn, fault, Option.any_some, ends]

theorem line_le {source : String} (short : source.length < 2 ^ 32 - 1) {x : Located}
    (inside : x ∈ locate .first (segments source.toList)) :
    x.place.line.toNat ≤ source.length := by
  rw [locate_source] at inside
  obtain ⟨y, offset, rfl⟩ := List.mem_map.mp inside
  have before := offset_lt offset
  rw [String.length_toList] at before
  have bound := (lineColumn_le (source.toList.take y.1)).1
  have place := congrArg Prod.fst (place_take short y.1)
  rw [List.length_take] at bound
  simp only [Place.lineColumn] at place ⊢
  omega

theorem toNat_down {line : UInt32} {n : Nat} (short : line.toNat + n < 2 ^ 32) :
    (line + n.toUInt32).toNat = line.toNat + n := by
  rw [UInt32.toNat_add, Nat.toUInt32_eq, UInt32.toNat_ofNat', Nat.add_mod_mod,
    Nat.mod_eq_of_lt short]

theorem token_line_le {source : String} (short : source.length < 2 ^ 32 - 1) {t : Token}
    (inside : t ∈ (ofText source).tokens) : t.line.toNat ≤ source.length := by
  rw [ofText_eq] at inside
  obtain ⟨x, located, found⟩ := List.mem_filterMap.mp inside
  have same : t.line.toNat = x.place.line.toNat :=
    congrArg Prod.fst (token?_eq_some found).2.1
  exact same ▸ line_le short located

theorem error_line_le {source : String} (short : source.length < 2 ^ 32 - 1) {d : Diagnostic}
    (inside : d ∈ (ofText source).errors) : d.line.toNat ≤ source.length := by
  rw [ofText_eq] at inside
  obtain ⟨x, located, found⟩ := List.mem_filterMap.mp inside
  have same : d.line.toNat = x.place.line.toNat :=
    congrArg Prod.fst (diagnostic?_eq_some found).2
  exact same ▸ line_le short located

/-- A text after a line end is scanned as a text of its own, as many lines further down as there are
line ends before it, unless an unterminated comment or raw string goes on over them. -/
theorem ofText_append_line (a b : String) (short : a.length + b.length < 2 ^ 32 - 1)
    (closed : ∀ d ∈ (ofText a).errors, runsOn a d = false) :
    Stacked (1 + a.toList.count '\n') (ofText a) (ofText b) (ofText (a ++ "\n" ++ b)) := by
  have lines : a.toList.count '\n' ≤ a.length := by
    rw [← String.length_toList]
    exact List.count_le_length
  have text : (a ++ "\n" ++ b).toList = a.toList ++ '\n' :: b.toList := by
    rw [String.toList_append, String.toList_append, List.append_assoc]
    rfl
  have cut := segments_append_line (segments_closed (by omega) closed) b.toList
  have located := locate_append_line a.toList b.toList (segments_text a.toList)
  refine ⟨?_, ?_, fun t inside => toNat_down ?_, fun d inside => toNat_down ?_⟩
  · rw [ofText_eq, ofText_eq, ofText_eq, text, cut, located]
    simp only [ofSegments, List.filterMap_append, List.filterMap_cons, List.filterMap_map,
      List.map_filterMap, Function.comp_def, token?_down]
    rfl
  · rw [ofText_eq, ofText_eq, ofText_eq, text, cut, located]
    simp only [ofSegments, List.filterMap_append, List.filterMap_cons, List.filterMap_map,
      List.map_filterMap, Function.comp_def, diagnostic?_down]
    rfl
  · have bound := token_line_le (by omega) inside
    omega
  · have bound := error_line_le (by omega) inside
    omega

theorem ofText_append_line_open_string :
    "x\n\"abc\\".length + "y. 1e".length < 2 ^ 32 - 1 ∧
      (ofText "x\n\"abc\\").errors.map Diagnostic.fault = [.unterminatedString] ∧
      (∀ d ∈ (ofText "x\n\"abc\\").errors, runsOn "x\n\"abc\\" d = false) ∧
      Stacked 2 (ofText "x\n\"abc\\") (ofText "y. 1e") (ofText ("x\n\"abc\\" ++ "\n" ++ "y. 1e")) :=
  have short : "x\n\"abc\\".length + "y. 1e".length < 2 ^ 32 - 1 := by decide
  have closed : ∀ d ∈ (ofText "x\n\"abc\\").errors, runsOn "x\n\"abc\\" d = false := by
    decide +kernel
  ⟨short, by decide +kernel, closed, ofText_append_line _ _ short closed⟩

end Scan

end LexicalReport
