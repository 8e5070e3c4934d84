import LexicalReport.Fault
import LexicalReport.Token.Basic

/-! A cursor stands in a source text and goes over it one character at a time. It knows its line and
the position at which that line begins, and holds the tokens and faults found so far. A column is
counted, and a text is cut out, only within bounds: what would reach outside gives nothing. -/

namespace LexicalReport.Scan

structure Cursor where
  chars : Array Char
  position : Nat
  line : UInt32
  lineStart : Nat
  tokens : Array Token
  errors : Array Diagnostic
deriving DecidableEq, Repr

structure Mark where
  position : Nat
  line : UInt32
  column : UInt32
deriving DecidableEq, Repr

namespace Cursor

def start (source : String) : Cursor :=
  ⟨source.toList.toArray, 0, 1, 0, #[], #[]⟩

def peek? (s : Cursor) : Option Char :=
  s.chars[s.position]?

def peekAt? (s : Cursor) (offset : Nat) : Option Char :=
  s.chars[s.position + offset]?

def left (s : Cursor) : Nat :=
  s.chars.size - s.position

def advance (s : Cursor) : Cursor :=
  match s.peek? with
  | none => s
  | some c =>
    if c = '\n' then
      { s with position := s.position + 1, line := s.line + 1, lineStart := s.position + 1 }
    else { s with position := s.position + 1 }

theorem position_lt_of_peek? {s : Cursor} {c : Char} (found : s.peek? = some c) :
    s.position < s.chars.size :=
  (Array.getElem?_eq_some_iff.mp found).1

@[simp] theorem advance_chars (s : Cursor) : s.advance.chars = s.chars := by
  unfold advance
  split
  · rfl
  · split <;> rfl

theorem advance_position {s : Cursor} {c : Char} (found : s.peek? = some c) :
    s.advance.position = s.position + 1 := by
  unfold advance
  rw [found]
  dsimp only
  split <;> rfl

theorem left_advance_lt {s : Cursor} {c : Char} (found : s.peek? = some c) :
    s.advance.left < s.left := by
  have inside := position_lt_of_peek? found
  rw [left, left, advance_chars, advance_position found]
  omega

theorem left_advance_le (s : Cursor) : s.advance.left ≤ s.left := by
  cases found : s.peek? with
  | none => simp [advance, found]
  | some c => exact Nat.le_of_lt (left_advance_lt found)

def advanceBy : Nat → Cursor → Cursor
  | 0, s => s
  | n + 1, s => advanceBy n s.advance

def advanceWhile (p : Char → Bool) (s : Cursor) : Cursor :=
  match _ : s.peek? with
  | none => s
  | some c => if p c then advanceWhile p s.advance else s
termination_by s.left
decreasing_by exact left_advance_lt ‹_›

/-- The mark of the cursor. The line must not begin after it. -/
def mark? (s : Cursor) : Option Mark :=
  if s.lineStart ≤ s.position then
    some ⟨s.position, s.line, (s.position - s.lineStart + 1).toUInt32⟩
  else none

def textFrom? (s : Cursor) (first : Nat) : Option (List Char) :=
  if first ≤ s.position ∧ s.position ≤ s.chars.size then
    some (s.chars.extract first s.position).toList
  else none

def noteToken? (s : Cursor) (kind : Token.Kind) (mark : Mark) : Option Cursor := do
  let text ← s.textFrom? mark.position
  some { s with tokens := s.tokens.push ⟨kind, String.ofList text, mark.line, mark.column⟩ }

def noteFault (s : Cursor) (fault : Fault) (mark : Mark) : Cursor :=
  { s with errors := s.errors.push ⟨fault, mark.line, mark.column⟩ }

end Cursor

end LexicalReport.Scan
