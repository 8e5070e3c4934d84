import LexicalReport.Scan.Place
import LexicalReport.Scan.Walk

/-! The tokens and the faults of a source text, in their order: what a cursor has noted when it has
walked over the whole text. The same is found from the segments of the text, each with the place
where it begins. -/

namespace LexicalReport

namespace Scan

structure Located where
  place : Place
  segment : Segment
deriving DecidableEq, Repr

def locate : Place → List Segment → List Located
  | _, [] => []
  | p, s :: rest => ⟨p, s⟩ :: locate (p.after s.text) rest

namespace Located

def token? (x : Located) : Option Token :=
  match x.segment.content with
  | .token kind => some ⟨kind, String.ofList x.segment.text, x.place.line, x.place.column⟩
  | _ => none

def diagnostic? (x : Located) : Option Diagnostic :=
  match x.segment.content with
  | .fault fault => some ⟨fault, x.place.line, x.place.column⟩
  | _ => none

end Located

end Scan

structure Scan where
  tokens : List Token
  errors : List Diagnostic
deriving DecidableEq, Repr

namespace Scan

def ofSegments (located : List Located) : Scan :=
  ⟨located.filterMap Located.token?, located.filterMap Located.diagnostic?⟩

def ofCursor (s : Cursor) : Scan :=
  ⟨s.tokens.toList, s.errors.toList⟩

/-- The scan of a source text. It is empty should the walk have no result. -/
def ofText (source : String) : Scan :=
  match (Cursor.start source).walk? with
  | some s => ofCursor s
  | none => ⟨[], []⟩

end Scan

end LexicalReport
