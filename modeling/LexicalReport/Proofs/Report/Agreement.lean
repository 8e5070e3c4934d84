import LexicalReport.Log.Basic
import LexicalReport.Proofs.Report.Document
import LexicalReport.Proofs.Report.Stripping

/-! The views of a run agree. A terminal and a log lay out one and the same listing of each report,
which holds the line of every token and the text of every fault; the counts that they announce, and
those of the document, are the numbers of what is listed. Colors add nothing to it. -/

namespace LexicalReport

structure Listing where
  source : String
  tokens : List String
  errors : List String
deriving DecidableEq

namespace Listing

open Report (rule)
open Log (thinRule)

def ofReport (r : Report) : Listing where
  source := r.source
  tokens := r.tokens.map Token.displayLine
  errors := r.errors.map Diagnostic.message

def counts (l : Listing) : Nat × Nat :=
  (l.tokens.length, l.errors.length)

section Layout

def heading (title : String) : List String :=
  [rule, title, rule]

def marked (text : String) : String :=
  " ✖ " ++ text

def faultSection (errors : List String) : List String :=
  if errors.isEmpty then [] else "" :: heading "ERRORS" ++ errors.map marked

def terminalLines (l : Listing) : List String :=
  heading ("LEXICAL ANALYSIS: " ++ l.source) ++ "" :: l.tokens ++ "" :: heading "SUMMARY" ++
    ["Recognized tokens: " ++ toString l.counts.1, "Errors found: " ++ toString l.counts.2] ++
    faultSection l.errors

def terminalText (listings : List Listing) : String :=
  "\n".intercalate (listings.map (fun l => Text.lines l.terminalLines))

def logErrors (errors : List String) : List String :=
  if errors.isEmpty then ["No lexical errors found."] else errors

def logLines (suffix : String) (l : Listing) : List String :=
  ["", "RECOGNIZED TOKENS (" ++ toString l.counts.1 ++ ")" ++ suffix, thinRule] ++ l.tokens ++
    ["", rule, "LEXICAL ERRORS (" ++ toString l.counts.2 ++ ")" ++ suffix, thinRule] ++
    logErrors l.errors

def logText (listings : List Listing) (user : String) (moment : Log.Moment) : String :=
  let suffix (l : Listing) := if 1 < listings.length then " - " ++ l.source else ""
  Text.lines (heading "LEXICAL ANALYSIS - GO LANGUAGE" ++
    listings.map (fun l => "File analyzed: " ++ l.source) ++
    ["Date and time: " ++ moment.dateAndTime, "User: " ++ user, rule] ++
    listings.flatMap (fun l => l.logLines (suffix l)) ++ "" :: heading "END OF ANALYSIS")

end Layout

@[simp] theorem counts_ofReport (r : Report) :
    (ofReport r).counts = (r.summary.tokens, r.summary.errors) := by
  simp [counts, ofReport, Report.summary]

section Uncolored

open Report.Terminal (banner tokenLine tokenCountLine errorCountLine errorLine errorBlock block)

theorem banner_false (title : String) : banner false title = Text.lines (heading title) :=
  rfl

theorem tokenLine_false (t : Token) : tokenLine false t = t.displayLine :=
  rfl

theorem tokenCountLine_false (s : Summary) :
    tokenCountLine false s = "Recognized tokens: " ++ toString s.tokens :=
  rfl

theorem errorCountLine_false (s : Summary) :
    errorCountLine false s = "Errors found: " ++ toString s.errors :=
  rfl

theorem errorLine_false (d : Diagnostic) : errorLine false d = marked d.message :=
  rfl

theorem errorBlock_false (errors : List Diagnostic) :
    errorBlock false errors = Text.lines (faultSection (errors.map Diagnostic.message)) := by
  have lines : errors.map (errorLine false) = (errors.map Diagnostic.message).map marked := by
    rw [List.map_map]
    exact List.map_congr_left fun d _ => errorLine_false d
  cases errors with
  | nil => rfl
  | cons d errors =>
    rw [errorBlock, lines, banner_false]
    simp [faultSection, Text.lines_cons, Text.lines_append, String.append_assoc]

theorem block_false (r : Report) : block false r = Text.lines (ofReport r).terminalLines := by
  have tokens : r.tokens.map (tokenLine false) = (ofReport r).tokens :=
    List.map_congr_left fun t _ => tokenLine_false t
  rw [block, banner_false, banner_false, tokens, tokenCountLine_false, errorCountLine_false,
    errorBlock_false, terminalLines, counts_ofReport]
  simp [ofReport, Text.lines_nil, Text.lines_cons, Text.lines_append, String.append_assoc]

theorem renderTerminal_false {reports : List Report} (shown : reports ≠ []) :
    Report.renderTerminal false reports = terminalText (reports.map ofReport) := by
  rw [Report.renderTerminal, if_neg (by simpa using shown), terminalText, List.map_map]
  congr 1
  exact List.map_congr_left fun r _ => block_false r

end Uncolored

theorem logLines_ofReport (suffix : String) (r : Report) :
    (ofReport r).logLines suffix = Log.reportLines suffix r := by
  simp only [logLines, counts_ofReport]
  simp [Log.reportLines, Log.countLine, Log.errorLines, logErrors, ofReport, Report.summary]

theorem text_eq (reports : List Report) (user : String) (moment : Log.Moment) :
    Log.text reports user moment = logText (reports.map ofReport) user moment := by
  have headings : (reports.map ofReport).map (fun l => "File analyzed: " ++ l.source) =
      reports.map (fun r => "File analyzed: " ++ r.source) := by
    rw [List.map_map]
    rfl
  simp only [Log.text, Log.textLines, Log.headerLines, logText, headings, List.length_map,
    List.flatMap_map, logLines_ofReport]
  simp [heading, Log.headingSuffix, ofReport]

end Listing

def Summary.counts? (entry : Json) : Option (Nat × Nat) := do
  let s ← ofEntry? entry
  return (s.tokens, s.errors)

theorem Summary.counts?_toJson (r : Report) :
    counts? r.toJson = some (Listing.ofReport r).counts := by
  simp [counts?, ofEntry?_toJson]

/-- The colored view without its style sequences is the uncolored one. That one and the log lay out
the same listings in the same order, and the entries of the document give the same counts. -/
theorem Report.views_agree {reports : List Report} (plain : ∀ r ∈ reports, r.EscapeFree) :
    Style.strip (renderTerminal true reports).toList = (renderTerminal false reports).toList ∧
      (reports ≠ [] → ∀ user moment,
        renderTerminal false reports = Listing.terminalText (reports.map Listing.ofReport) ∧
        Log.text reports user moment =
          Listing.logText (reports.map Listing.ofReport) user moment ∧
        ∃ text entries totals, renderJson reports = text ++ "\n" ∧
          Json.read? text =
            some (.ofFields [("reports", .array entries), ("summary", totals)]) ∧
          entries.map Summary.counts? =
            (reports.map Listing.ofReport).map (fun l => some l.counts)) := by
  refine ⟨(strips_renderTerminal plain).strip_eq, fun shown user moment =>
    ⟨Listing.renderTerminal_false shown, Listing.text_eq reports user moment, ?_⟩⟩
  refine ⟨(document reports).print, reports.map toJson, (Totals.ofReports reports).toJson, rfl,
    Json.read?_print (legible_document reports), ?_⟩
  rw [List.map_map, List.map_map]
  exact List.map_congr_left fun r _ => Summary.counts?_toJson r

theorem Report.views_agree_illegal_character :
    let reports : List Report :=
      [⟨"a.go", [⟨.identifier, "x", 1, 1⟩], [⟨.illegalCharacter '@', 1, 3⟩]⟩]
    let listing : Listing := ⟨"a.go",
      ["Token: ID                   | Value: x                              | " ++
        "Line:    1 | Column:    1"],
      ["Illegal character '@' at line 1, column 3"]⟩
    (∀ r ∈ reports, r.EscapeFree) ∧ reports.map Listing.ofReport = [listing] ∧
      Style.strip (renderTerminal true reports).toList = (renderTerminal false reports).toList ∧
      ∀ user moment, renderTerminal false reports = Listing.terminalText [listing] ∧
        Log.text reports user moment = Listing.logText [listing] user moment := by
  intro reports listing
  have plain : ∀ r ∈ reports, r.EscapeFree := by
    intro r inside
    rw [List.mem_singleton.mp inside]
    exact ⟨by decide +kernel, by decide +kernel, by decide +kernel⟩
  have listed : reports.map Listing.ofReport = [listing] := by decide +kernel
  obtain ⟨uncolored, views⟩ := views_agree plain
  refine ⟨plain, listed, uncolored, fun user moment => ?_⟩
  have agree := views (by simp [reports]) user moment
  rw [listed] at agree
  exact ⟨agree.1, agree.2.1⟩

end LexicalReport
