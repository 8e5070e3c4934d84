import LexicalReport.Scan.Cursor
import LexicalReport.Scan.Segment

/-! The walk of a cursor over a source text. Each step looks at the next characters, goes over what
begins there, and notes it if it is a token or a fault. The walk has no result if a step reaches
outside the text or does not get on. -/

namespace LexicalReport.Scan.Cursor

open Token (Kind)

def takeLine (s : Cursor) : Cursor :=
  s.advanceWhile (· != '\n')

def closeBlock (s : Cursor) : Cursor × Bool :=
  match _ : s.peek? with
  | none => (s, false)
  | some c =>
    if c = '*' ∧ s.advance.peek? = some '/' then (s.advance.advance, true)
    else closeBlock s.advance
termination_by s.left
decreasing_by exact left_advance_lt ‹_›

def takeBlock? (s : Cursor) : Option Cursor := do
  let mark ← s.mark?
  match closeBlock s.advance.advance with
  | (t, true) => some t
  | (t, false) => some (t.noteFault .unterminatedComment mark)

def takeWord? (s : Cursor) : Option Cursor := do
  let mark ← s.mark?
  let t := s.advanceWhile isWordPart
  let text ← t.textFrom? mark.position
  t.noteToken? (Kind.ofWord (String.ofList text)) mark

def radixAhead? (s : Cursor) : Option (Char → Bool) :=
  if s.peek? = some '0' then (s.peekAt? 1).bind radixDigit? else none

def takeRadixNumber? (s : Cursor) (isDigit : Char → Bool) (mark : Mark) : Option Cursor := do
  let letter := s.advance.advance
  let t := letter.advanceWhile (fun c => c == '_' || isDigit c)
  let digits ← t.textFrom? letter.position
  if digits.any (· != '_') then t.noteToken? .intLiteral mark
  else
    let text ← t.textFrom? mark.position
    some (t.noteFault (.malformedNumber (String.ofList text)) mark)

def opensFraction (s : Cursor) : Bool :=
  s.peek? == some '.' && s.peekAt? 1 != some '.'

def isSign (c : Char) : Bool :=
  c == '+' || c == '-'

def opensExponent (s : Cursor) : Bool :=
  s.peek?.any (fun c => c == 'e' || c == 'E') &&
    ((s.peekAt? 1).any Char.isDigit ||
      (s.peekAt? 1).any isSign && (s.peekAt? 2).any Char.isDigit)

def takeFraction (s : Cursor) : Cursor :=
  if s.opensFraction then s.advance.advanceWhile isDecimal else s

def takeExponent (s : Cursor) : Cursor :=
  if s.opensExponent then
    let sign := s.advance
    (if sign.peek?.any isSign then sign.advance else sign).advanceWhile isDecimal
  else s

def takePlainNumber? (s : Cursor) (mark : Mark) : Option Cursor := do
  let whole := s.advanceWhile isDecimal
  let fraction := whole.takeFraction
  let t := fraction.takeExponent
  if whole.opensFraction || fraction.opensExponent then t.noteToken? .floatLiteral mark
  else
    let text ← t.textFrom? mark.position
    if text.head? = some '0' ∧ text.any (fun c => c == '8' || c == '9') then
      some (t.noteFault (.malformedNumber (String.ofList text)) mark)
    else t.noteToken? .intLiteral mark

def takeNumber? (s : Cursor) : Option Cursor := do
  let mark ← s.mark?
  match s.radixAhead? with
  | some isDigit => s.takeRadixNumber? isDigit mark
  | none => s.takePlainNumber? mark

def skipEscaped (s : Cursor) : Cursor :=
  if s.peek?.any (· != '\n') then s.advance else s

theorem left_skipEscaped_le (s : Cursor) : s.skipEscaped.left ≤ s.left := by
  unfold skipEscaped
  split
  · exact left_advance_le s
  · exact Nat.le_refl _

def closeQuoted (quote : Char) (s : Cursor) : Cursor × Bool :=
  match _ : s.peek? with
  | none => (s, false)
  | some c =>
    if c = '\n' then (s, false)
    else if c = '\\' then closeQuoted quote s.advance.skipEscaped
    else if c = quote then (s.advance, true)
    else closeQuoted quote s.advance
termination_by s.left
decreasing_by
  · exact Nat.lt_of_le_of_lt (left_skipEscaped_le _) (left_advance_lt ‹_›)
  · exact left_advance_lt ‹_›

def takeString? (s : Cursor) : Option Cursor := do
  let mark ← s.mark?
  match closeQuoted '"' s.advance with
  | (t, true) => t.noteToken? .stringLiteral mark
  | (t, false) => some (t.noteFault .unterminatedString mark)

def takeRaw? (s : Cursor) : Option Cursor := do
  let mark ← s.mark?
  let t := s.advance.advanceWhile (· != '\x60')
  match t.peek? with
  | some _ => t.advance.noteToken? .stringLiteral mark
  | none => some (t.noteFault .unterminatedString mark)

def takeRune? (s : Cursor) : Option Cursor := do
  let mark ← s.mark?
  match closeQuoted '\'' s.advance with
  | (t, true) =>
    let text ← t.textFrom? mark.position
    if text.length = 2 then some (t.noteFault .emptyRune mark) else t.noteToken? .runeLiteral mark
  | (t, false) => some (t.noteFault .unterminatedRune mark)

def spells (s : Cursor) (spelling : List Char) : Bool :=
  (s.chars.extract s.position (s.position + spelling.length)).toList == spelling

def operatorAhead? (s : Cursor) : Option (Option (Kind × Nat)) :=
  if s.position ≤ s.chars.size then
    some ((operators.find? (fun entry => s.spells entry.1)).map
      (fun entry => (entry.2, entry.1.length)))
  else none

def takeOperator? (s : Cursor) : Option Cursor := do
  let mark ← s.mark?
  match ← s.operatorAhead? with
  | some (kind, n) => (s.advanceBy n).noteToken? kind mark
  | none =>
    match s.peek? with
    | some c => some (s.advance.noteFault (.illegalCharacter c) mark)
    | none => some s

def step? (s : Cursor) (c : Char) : Option Cursor :=
  if isSkipped c then some s.advance
  else if c = '/' ∧ s.peekAt? 1 = some '/' then some s.takeLine
  else if c = '/' ∧ s.peekAt? 1 = some '*' then s.takeBlock?
  else if isWordStart c then s.takeWord?
  else if c.isDigit then s.takeNumber?
  else if c = '.' ∧ (s.peekAt? 1).any Char.isDigit then s.takeNumber?
  else if c = '"' then s.takeString?
  else if c = '\x60' then s.takeRaw?
  else if c = '\'' then s.takeRune?
  else s.takeOperator?

/-- Step on until no character is left. A step that does not get on ends the walk without result. -/
def walk? (s : Cursor) : Option Cursor :=
  match s.peek? with
  | none => some s
  | some c =>
    match s.step? c with
    | none => none
    | some t => if t.left < s.left then walk? t else none
termination_by s.left

end LexicalReport.Scan.Cursor
