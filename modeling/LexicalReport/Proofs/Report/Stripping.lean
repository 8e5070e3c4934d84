import LexicalReport.Proofs.Text.Printable
import LexicalReport.Report.Terminal

/-! The colors of a terminal view are nothing but colors. A style sequence is an escape, a bracket,
parameters and an m; a colored text from which these sequences are taken away is the text without
colors, provided that the texts it shows hold no escapes of their own. -/

namespace LexicalReport

namespace Style

def isParameter (c : Char) : Bool :=
  c.isDigit || c == ';'

def afterSequence? : List Char → Option (List Char)
  | c :: '[' :: rest =>
    if c = escape then
      match rest.dropWhile isParameter with
      | 'm' :: more => some more
      | _ => none
    else none
  | _ => none

theorem length_afterSequence? {cs more : List Char} (found : afterSequence? cs = some more) :
    more.length < cs.length := by
  unfold afterSequence? at found
  split at found
  · next c rest =>
      split at found
      · split at found
        · next same =>
            have shorter := (List.dropWhile_suffix isParameter (l := rest)).length_le
            rw [same] at shorter
            simp_all
            omega
        · cases found
      · cases found
  · cases found

def strip : List Char → List Char
  | [] => []
  | c :: rest =>
    match _ : afterSequence? (c :: rest) with
    | some more => strip more
    | none => c :: strip rest
termination_by cs => cs.length
decreasing_by
  · exact length_afterSequence? ‹_›
  · simp

theorem strip_of_afterSequence? {cs more : List Char} (found : afterSequence? cs = some more) :
    strip cs = strip more := by
  cases cs with
  | nil => cases found
  | cons c rest =>
    rw [strip]
    split
    · next same => simp_all
    · next same => simp_all

theorem strip_cons {c : Char} (other : c ≠ escape) (rest : List Char) :
    strip (c :: rest) = c :: strip rest := by
  have plain : afterSequence? (c :: rest) = none := by
    unfold afterSequence?
    split <;> simp_all
  rw [strip]
  split <;> simp_all

theorem strip_append {cs : List Char} (plain : escape ∉ cs) (rest : List Char) :
    strip (cs ++ rest) = cs ++ strip rest := by
  induction cs with
  | nil => rfl
  | cons c cs ih =>
    rw [List.mem_cons, not_or] at plain
    rw [List.cons_append, strip_cons (Ne.symm plain.1), ih plain.2, List.cons_append]

theorem strip_opening (s : Style) (rest : List Char) : strip (s.opening ++ rest) = strip rest := by
  apply strip_of_afterSequence?
  cases s <;> rfl

theorem strip_reset (rest : List Char) : strip (reset ++ rest) = strip rest :=
  strip_of_afterSequence? rfl

theorem reopened_of_plain (s : Style) {cs : List Char} (plain : escape ∉ cs) :
    s.reopened cs = cs := by
  induction cs with
  | nil => rw [reopened]
  | cons c cs ih =>
    rw [List.mem_cons, not_or] at plain
    rw [reopened, if_neg, ih plain.2]
    simp [reset, List.isPrefixOf, plain.1]

/-- The first text leaves the second one where it loses its style sequences, whatever follows it. -/
def Strips (colored plain : String) : Prop :=
  ∀ rest, strip (colored.toList ++ rest) = plain.toList ++ strip rest

theorem Strips.strip_eq {colored plain : String} (leaves : Strips colored plain) :
    strip colored.toList = plain.toList := by
  have alone := leaves []
  rwa [List.append_nil, strip, List.append_nil] at alone

theorem strips_self {s : String} (plain : escape ∉ s.toList) : Strips s s :=
  strip_append plain

theorem strips_of_printable {s : String} (shown : Text.Printable s) : Strips s s :=
  strips_self (Text.not_mem_of_printable (by decide) shown)

theorem Strips.append {colored plain more less : String} (first : Strips colored plain)
    (second : Strips more less) : Strips (colored ++ more) (plain ++ less) := by
  intro rest
  rw [String.toList_append, String.toList_append, List.append_assoc, first, second,
    List.append_assoc]

theorem strips_paint (s : Style) {text : String} (plain : escape ∉ text.toList) :
    Strips (s.paint true text) (s.paint false text) := by
  intro rest
  simp only [paint, if_true, Bool.false_eq_true, if_false, String.toList_ofList,
    reopened_of_plain s plain, List.append_assoc]
  rw [strip_opening, strip_append plain, strip_reset]

theorem strips_noLines : Strips (Text.lines []) (Text.lines []) :=
  strips_self (by simp [Text.lines_nil])

theorem Strips.line {colored plain : String} {more less : List String}
    (first : Strips colored plain) (second : Strips (Text.lines more) (Text.lines less)) :
    Strips (Text.lines (colored :: more)) (Text.lines (plain :: less)) := by
  rw [Text.lines_cons, Text.lines_cons]
  exact (first.append (strips_self (by decide))).append second

section Pieces

variable {α : Type} {colored plain : α → String} {xs : List α}
variable (each : ∀ x ∈ xs, Strips (colored x) (plain x))
include each

theorem strips_lines : Strips (Text.lines (xs.map colored)) (Text.lines (xs.map plain)) := by
  induction xs with
  | nil => exact strips_noLines
  | cons x xs ih =>
    rw [List.forall_mem_cons] at each
    exact each.1.line (ih each.2)

theorem strips_intercalate {separator : String} (bare : escape ∉ separator.toList) :
    Strips (separator.intercalate (xs.map colored)) (separator.intercalate (xs.map plain)) := by
  induction xs with
  | nil => exact strips_self (by simp)
  | cons x xs ih =>
    rw [List.forall_mem_cons] at each
    cases xs with
    | nil => simpa using each.1
    | cons y xs =>
      rw [List.map_cons, List.map_cons, List.map_cons, List.map_cons,
        String.intercalate_cons_cons, String.intercalate_cons_cons]
      exact (each.1.append (strips_self bare)).append (ih each.2)

end Pieces

end Style

namespace Report

open Style (escape Strips strips_self strips_of_printable strips_paint strips_noLines strips_lines)

structure EscapeFree (r : Report) : Prop where
  source : escape ∉ r.source.toList
  values : ∀ t ∈ r.tokens, escape ∉ t.value.toList
  texts : ∀ d ∈ r.errors, escape ∉ d.message.toList

theorem printable_rule : Text.Printable rule :=
  Text.printable_replicate (by decide) _

namespace Terminal

theorem strips_banner {title : String} (plain : escape ∉ title.toList) :
    Strips (banner true title) (banner false title) := by
  have edge := strips_paint .dimmed (Text.not_mem_of_printable (by decide) printable_rule)
  exact edge.line ((strips_paint .bold plain).line (edge.line strips_noLines))

theorem strips_tokenLine {t : Token} (plain : escape ∉ t.value.toList) :
    Strips (tokenLine true t) (tokenLine false t) := by
  have kind : escape ∉ (Text.padRight Token.kindWidth t.kind.name).toList := by
    rw [← List.count_eq_zero, Text.count_padRight (by decide), List.count_eq_zero]
    exact Text.not_mem_of_printable (by decide) t.kind.printable_name
  have value : escape ∉ (Text.padRight Token.valueWidth t.value).toList := by
    rwa [← List.count_eq_zero, Text.count_padRight (by decide), List.count_eq_zero]
  have place (n : UInt32) := strips_of_printable (Token.printable_placeField n)
  apply Strips.append _ (place t.column)
  apply Strips.append _ (strips_self (by decide))
  apply Strips.append _ (place t.line)
  apply Strips.append _ (strips_self (by decide))
  apply Strips.append _ (strips_paint .bold value)
  apply Strips.append _ (strips_self (by decide))
  exact (strips_self (by decide)).append (strips_paint .cyan kind)

theorem strips_errorLine {d : Diagnostic} (plain : escape ∉ d.message.toList) :
    Strips (errorLine true d) (errorLine false d) := by
  apply Strips.append _ (strips_self plain)
  apply Strips.append _ (strips_self (by decide))
  exact (strips_self (by decide)).append (strips_paint .boldRed (by decide))

theorem strips_counts (s : Summary) :
    Strips (Text.lines [tokenCountLine true s, errorCountLine true s])
      (Text.lines [tokenCountLine false s, errorCountLine false s]) := by
  have count (style : Style) (n : Nat) := strips_paint style
    (Text.not_mem_of_printable (by decide) (Text.printable_toString n))
  have tokens := (strips_self (s := "Recognized tokens: ") (by decide)).append
    (count .boldGreen s.tokens)
  have errors := (strips_self (s := "Errors found: ") (by decide)).append
    (count (if s.errors = 0 then .boldGreen else .boldRed) s.errors)
  exact tokens.line (errors.line strips_noLines)

theorem strips_errorBlock {errors : List Diagnostic}
    (plain : ∀ d ∈ errors, escape ∉ d.message.toList) :
    Strips (errorBlock true errors) (errorBlock false errors) := by
  unfold errorBlock
  split
  · exact strips_self (by decide)
  · apply Strips.append _ (strips_lines fun d inside => strips_errorLine (plain d inside))
    exact (strips_self (by decide)).append (strips_banner (by decide))

theorem strips_block {r : Report} (plain : r.EscapeFree) :
    Strips (block true r) (block false r) := by
  have title : escape ∉ ("LEXICAL ANALYSIS: " ++ r.source).toList :=
    Text.not_mem_append.mpr ⟨by decide, plain.source⟩
  apply Strips.append _ (strips_errorBlock plain.texts)
  apply Strips.append _ (strips_counts r.summary)
  apply Strips.append _ (strips_banner (by decide))
  apply Strips.append _ (strips_self (by decide))
  apply Strips.append _ (strips_lines fun t inside => strips_tokenLine (plain.values t inside))
  exact (strips_banner title).append (strips_self (by decide))

end Terminal

theorem strips_renderTerminal {reports : List Report} (plain : ∀ r ∈ reports, r.EscapeFree) :
    Strips (renderTerminal true reports) (renderTerminal false reports) := by
  unfold renderTerminal
  split
  · exact strips_paint .yellow (by decide)
  · exact Style.strips_intercalate (fun r inside => Terminal.strips_block (plain r inside))
      (by decide)

end Report

end LexicalReport
