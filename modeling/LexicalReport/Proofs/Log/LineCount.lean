import LexicalReport.Log.Basic
import LexicalReport.Proofs.Report.Stripping
import LexicalReport.Proofs.Scan.LineSpans
import Mathlib.Algebra.GroupWithZero.Nat

/-! How many lines a log has. Every item of a log is given a line of its own, but a line is broken
by the line ends in what it shows. If names hold none, only the value of a raw string does; each of
its line ends makes the log one line longer, with whatever text the value has there. -/

namespace LexicalReport

namespace Text

/-- The number of line feeds in a text. In a text of whole lines that is the number of lines. -/
def lineEnds (s : String) : Nat :=
  s.toList.count '\n'

theorem lineEnds_eq_zero {s : String} : lineEnds s = 0 ↔ '\n' ∉ s.toList :=
  List.count_eq_zero

theorem lineEnds_append (s t : String) : lineEnds (s ++ t) = lineEnds s + lineEnds t := by
  rw [lineEnds, String.toList_append, List.count_append, lineEnds, lineEnds]

theorem lineEnds_of_printable {s : String} (shown : Printable s) : lineEnds s = 0 :=
  lineEnds_eq_zero.mpr (not_mem_of_printable (by decide) shown)

theorem lineEnds_lines (ls : List String) :
    lineEnds (lines ls) = ls.length + (ls.map lineEnds).sum := by
  induction ls with
  | nil => rfl
  | cons l ls ih =>
    have ended : lineEnds "\n" = 1 := by decide
    rw [lines_cons, lineEnds_append, lineEnds_append, ended, ih, List.length_cons, List.map_cons,
      List.sum_cons]
    omega

theorem lineEnds_lines_flat {ls : List String} (flat : ∀ l ∈ ls, lineEnds l = 0) :
    lineEnds (lines ls) = ls.length := by
  have none : (ls.map lineEnds).sum = 0 := by
    rw [List.sum_eq_zero_iff_forall_eq_nat, List.forall_mem_map]
    exact flat
  rw [lineEnds_lines, none, Nat.add_zero]

end Text

namespace Log

open Text (Printable lineEnds lineEnds_append lineEnds_of_printable lineEnds_lines
  lineEnds_lines_flat)
open Report (rule printable_rule)

namespace Moment

theorem printable_yearText (year : Int) : Printable (yearText year) := by
  unfold yearText
  split
  · exact Text.printable_append.mpr ⟨by decide, Text.printable_zeroPadded _ _⟩
  · split
    · exact Text.printable_zeroPadded _ _
    · exact Text.printable_append.mpr ⟨by decide, Text.printable_toString _⟩

theorem printable_dateAndTime (m : Moment) : Printable m.dateAndTime := by
  have two (n : Nat) : Printable (twoDigits n) := Text.printable_zeroPadded 2 n
  have slash : Printable "/" := by decide
  have colon : Printable ":" := by decide
  have space : Printable " " := by decide
  simp only [dateAndTime, Text.printable_append, two, printable_yearText, slash, colon, space,
    and_self]

end Moment

theorem lineEnds_rule : lineEnds rule = 0 :=
  lineEnds_of_printable printable_rule

theorem lineEnds_thinRule : lineEnds thinRule = 0 :=
  lineEnds_of_printable (Text.printable_replicate (by decide) _)

theorem lineEnds_countLine {title suffix : String} (shown : Printable title) (n : Nat)
    (flat : lineEnds suffix = 0) : lineEnds (countLine title n suffix) = 0 := by
  have number := lineEnds_of_printable (Text.printable_toString n)
  have opening : lineEnds " (" = 0 := by decide
  have closing : lineEnds ")" = 0 := by decide
  simp only [countLine, lineEnds_append, lineEnds_of_printable shown, number, opening, closing,
    flat]

theorem lineEnds_headerLines {reports : List Report} {user : String} (moment : Moment)
    (names : ∀ r ∈ reports, lineEnds r.source = 0) (alone : lineEnds user = 0) :
    lineEnds (Text.lines (headerLines reports user moment)) = 6 + reports.length := by
  have date : lineEnds ("Date and time: " ++ moment.dateAndTime) = 0 := by
    rw [lineEnds_append, lineEnds_of_printable moment.printable_dateAndTime]
    decide
  have writer : lineEnds ("User: " ++ user) = 0 := by
    rw [lineEnds_append, alone]
    decide
  have named : ∀ l ∈ reports.map (fun r => "File analyzed: " ++ r.source), lineEnds l = 0 := by
    intro l inside
    obtain ⟨r, found, rfl⟩ := List.mem_map.mp inside
    rw [lineEnds_append, names r found]
    decide
  rw [headerLines, Text.lineEnds_lines_flat]
  · simp
    omega
  · simp only [List.forall_mem_append, List.forall_mem_cons]
    exact ⟨⟨⟨lineEnds_rule, by decide, lineEnds_rule, by simp⟩, named⟩, date, writer,
      lineEnds_rule, by simp⟩

theorem lineEnds_errorLines {errors : List Diagnostic}
    (flat : ∀ d ∈ errors, lineEnds d.message = 0) :
    lineEnds (Text.lines (errorLines errors)) = max 1 errors.length := by
  rw [lineEnds_lines_flat]
  · cases errors with
    | nil => rfl
    | cons d errors =>
      rw [errorLines, List.isEmpty_cons, if_neg (by decide), List.length_map, List.length_cons]
      omega
  · cases errors with
    | nil => simp only [errorLines, List.isEmpty_nil, if_true, List.forall_mem_singleton]; decide
    | cons d errors => exact List.forall_mem_map.mpr flat

theorem lineEnds_displayLine (t : Token) : lineEnds t.displayLine = lineEnds t.value := by
  rw [lineEnds, Token.count_displayLine (by decide), lineEnds]

theorem lineEnds_tokenLines (tokens : List Token) :
    lineEnds (Text.lines (tokens.map Token.displayLine)) =
      tokens.length + (tokens.map (fun t => lineEnds t.value)).sum := by
  simp only [lineEnds_lines, List.length_map, List.map_map, Function.comp_def,
    lineEnds_displayLine]

theorem lineEnds_reportLines {suffix : String} {r : Report} (flat : lineEnds suffix = 0)
    (errors : ∀ d ∈ r.errors, lineEnds d.message = 0) :
    lineEnds (Text.lines (reportLines suffix r)) =
      7 + r.tokens.length + max 1 r.errors.length +
        (r.tokens.map (fun t => lineEnds t.value)).sum := by
  have count {title : String} (shown : Printable title) (n : Nat) :=
    lineEnds_countLine shown n flat
  have opening : lineEnds (Text.lines
      ["", countLine "RECOGNIZED TOKENS" r.tokens.length suffix, thinRule]) = 3 := by
    apply lineEnds_lines_flat
    simp only [List.forall_mem_cons]
    exact ⟨by decide, count (by decide) _, lineEnds_thinRule, by simp⟩
  have middle : lineEnds (Text.lines
      ["", rule, countLine "LEXICAL ERRORS" r.errors.length suffix, thinRule]) = 4 := by
    apply lineEnds_lines_flat
    simp only [List.forall_mem_cons]
    exact ⟨by decide, lineEnds_rule, count (by decide) _, lineEnds_thinRule, by simp⟩
  rw [reportLines, Text.lines_append, Text.lines_append, Text.lines_append, lineEnds_append,
    lineEnds_append, lineEnds_append, opening, middle, lineEnds_tokenLines,
    lineEnds_errorLines errors]
  omega

theorem lineEnds_sections {suffix : Report → String} {reports : List Report}
    (flat : ∀ r ∈ reports, lineEnds (suffix r) = 0)
    (errors : ∀ r ∈ reports, ∀ d ∈ r.errors, lineEnds d.message = 0) :
    reports.length + lineEnds (Text.lines (reports.flatMap (fun r => reportLines (suffix r) r))) =
      (reports.map (fun r => 8 + r.tokens.length + max 1 r.errors.length)).sum +
        (reports.map (fun r => (r.tokens.map (fun t => lineEnds t.value)).sum)).sum := by
  induction reports with
  | nil => rfl
  | cons r reports ih =>
    rw [List.forall_mem_cons] at flat errors
    have rest := ih flat.2 errors.2
    rw [List.flatMap_cons, Text.lines_append, lineEnds_append,
      lineEnds_reportLines flat.1 errors.1, List.length_cons, List.map_cons, List.sum_cons,
      List.map_cons, List.sum_cons]
    omega

theorem lineEnds_text {reports : List Report} {user : String} (moment : Moment)
    (names : ∀ r ∈ reports, lineEnds r.source = 0) (alone : lineEnds user = 0)
    (errors : ∀ r ∈ reports, ∀ d ∈ r.errors, lineEnds d.message = 0) :
    lineEnds (text reports user moment) =
      10 + (reports.map (fun r => 8 + r.tokens.length + max 1 r.errors.length)).sum +
        (reports.map (fun r => (r.tokens.map (fun t => lineEnds t.value)).sum)).sum := by
  have suffixes : ∀ r ∈ reports, lineEnds (headingSuffix (1 < reports.length) r) = 0 := by
    intro r inside
    rw [headingSuffix]
    split
    · rw [lineEnds_append, names r inside]
      decide
    · decide
  have sections := lineEnds_sections suffixes errors
  have ending : lineEnds (Text.lines ["", rule, "END OF ANALYSIS", rule]) = 4 := by
    apply lineEnds_lines_flat
    simp only [List.forall_mem_cons]
    exact ⟨by decide, lineEnds_rule, by decide, lineEnds_rule, by simp⟩
  rw [text, textLines, Text.lines_append, Text.lines_append, lineEnds_append, lineEnds_append,
    lineEnds_headerLines moment names alone, ending]
  omega

/-- The log of scanned sources has one line for each token and each error beside its fixed lines,
and one more for each line end in the value of a token. Only raw strings have such values. -/
theorem lineEnds_text_ofSource (files : List (String × String)) (user : String) (moment : Moment)
    (names : ∀ file ∈ files, '\n' ∉ file.1.toList) (alone : '\n' ∉ user.toList) :
    let reports := files.map (fun file => Report.ofSource file.1 file.2)
    lineEnds (text reports user moment) =
        10 + (reports.map (fun r => 8 + r.tokens.length + max 1 r.errors.length)).sum +
          (reports.map (fun r => (r.tokens.map (fun t => lineEnds t.value)).sum)).sum ∧
      ∀ r ∈ reports,
        (∀ t ∈ r.tokens, lineEnds t.value ≠ 0 →
          t.kind = .stringLiteral ∧ t.value.toList.head? = some '\x60') ∧
        ∀ d ∈ r.errors, lineEnds d.message = 0 := by
  intro reports
  have each : ∀ r ∈ reports, ∃ file ∈ files, Report.ofSource file.1 file.2 = r :=
    fun r inside => List.mem_map.mp inside
  have errors : ∀ r ∈ reports, ∀ d ∈ r.errors, lineEnds d.message = 0 := by
    intro r inside d error
    obtain ⟨file, -, rfl⟩ := each r inside
    apply Text.lineEnds_eq_zero.mpr
    exact Diagnostic.message_flat (Fault.message_flat fun quote quotes =>
      Scan.quoted_flat error quotes)
  refine ⟨lineEnds_text moment ?_ (Text.lineEnds_eq_zero.mpr alone) errors, ?_⟩
  · intro r inside
    obtain ⟨file, found, rfl⟩ := each r inside
    exact Text.lineEnds_eq_zero.mpr (names file found)
  · intro r inside
    refine ⟨fun t token across => ?_, errors r inside⟩
    obtain ⟨file, -, rfl⟩ := each r inside
    apply Scan.token_spans token
    by_contra flat
    exact across (Text.lineEnds_eq_zero.mpr flat)

theorem lineEnds_text_ofSource_two_files :
    let files := [("a.go", "\x60\n\x60;"), ("b.go", "\"")]
    let reports : List Report :=
      [⟨"a.go", [⟨.stringLiteral, "\x60\n\x60", 1, 1⟩, ⟨.semicolon, ";", 2, 2⟩], []⟩,
        ⟨"b.go", [], [⟨.unterminatedString, 1, 1⟩]⟩]
    (∀ file ∈ files, '\n' ∉ file.1.toList) ∧ '\n' ∉ "ada".toList ∧
      files.map (fun file => Report.ofSource file.1 file.2) = reports ∧
      ∀ moment, lineEnds (text reports "ada" moment) = 10 + (11 + 9) + 1 := by
  intro files reports
  have names : ∀ file ∈ files, '\n' ∉ file.1.toList := by simp [files]
  have alone : '\n' ∉ "ada".toList := by decide
  have scanned : files.map (fun file => Report.ofSource file.1 file.2) = reports := by
    decide +kernel
  refine ⟨names, alone, scanned, fun moment => ?_⟩
  have counted := (lineEnds_text_ofSource files "ada" moment names alone).1
  rw [scanned] at counted
  rw [counted]
  decide +kernel

/-- A raw string takes as many lines of a log as it has itself, and one of them may read like a
heading. -/
theorem lineEnds_text_ofSource_heading :
    ¬ ∀ (files : List (String × String)) (user : String) (moment : Moment),
      (∀ file ∈ files, '\n' ∉ file.1.toList) → '\n' ∉ user.toList →
      lineEnds (text (files.map (fun file => Report.ofSource file.1 file.2)) user moment) =
        10 + ((files.map (fun file => Report.ofSource file.1 file.2)).map
          (fun r => 8 + r.tokens.length + max 1 r.errors.length)).sum := by
  intro whole
  let source := "\x60\nLEXICAL ERRORS (7)\n\x60"
  have scanned : [("a.go", source)].map (fun file => Report.ofSource file.1 file.2) =
      [⟨"a.go", [⟨.stringLiteral, source, 1, 1⟩], []⟩] := by
    decide +kernel
  have counted := whole [("a.go", source)] "ada" ⟨2025, 3, 7, 9, 5, 0, 0⟩ (by simp) (by decide)
  rw [scanned, lineEnds_text _ (by decide +kernel) (by decide) (by decide +kernel)] at counted
  revert counted
  decide +kernel

end Log

end LexicalReport
