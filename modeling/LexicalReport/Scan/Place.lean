/-! Places in a source text. A place is known by its line and by the number of characters that come
before it on that line; both numbers are shown as words of thirty-two bits. -/

namespace LexicalReport.Scan

structure Place where
  line : UInt32
  before : Nat
deriving DecidableEq, Repr

namespace Place

def first : Place := ⟨1, 0⟩

def column (p : Place) : UInt32 :=
  (p.before + 1).toUInt32

def next (p : Place) (c : Char) : Place :=
  if c = '\n' then ⟨p.line + 1, 0⟩ else ⟨p.line, p.before + 1⟩

def after (p : Place) (text : List Char) : Place :=
  text.foldl next p

end Place

end LexicalReport.Scan
