import LexicalReport.Scan.Basic

/-! The report on one source: the name it is shown under, its tokens and its faults. -/

namespace LexicalReport

structure Report where
  source : String
  tokens : List Token
  errors : List Diagnostic
deriving DecidableEq, Repr

/-- Counts of a report. Truth values are neither keywords nor identifiers. -/
structure Summary where
  tokens : Nat
  errors : Nat
  keywords : Nat
  identifiers : Nat
deriving DecidableEq, Repr

namespace Report

def ofSource (name source : String) : Report :=
  let scan := Scan.ofText source
  ⟨name, scan.tokens, scan.errors⟩

def summary (r : Report) : Summary where
  tokens := r.tokens.length
  errors := r.errors.length
  keywords := r.tokens.countP (fun token => token.kind.isKeyword)
  identifiers := r.tokens.countP (fun token => token.kind == .identifier)

def hasErrors (r : Report) : Bool :=
  !r.errors.isEmpty

end Report

structure Totals where
  files : Nat
  tokens : Nat
  errors : Nat
deriving DecidableEq, Repr

def Totals.ofReports (reports : List Report) : Totals where
  files := reports.length
  tokens := (reports.flatMap Report.tokens).length
  errors := (reports.flatMap Report.errors).length

end LexicalReport
