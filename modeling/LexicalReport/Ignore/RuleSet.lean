import LexicalReport.Files.Path
import LexicalReport.Ignore.Rule
import LexicalReport.Text.Pieces

/-! The rules of one ignore file. They are relative to the directory of the file, and the last rule
that matches a path decides about it. -/

namespace LexicalReport.Ignore

def withoutLead (lead cs : List Char) : List Char :=
  if lead.isPrefixOf cs then cs.drop lead.length else cs

def dotSlash : List Char := ['.', '/']

structure RuleSet where
  base : List Char
  rules : List Rule

namespace RuleSet

def lineFeed : UInt8 := 0x0a

def carriageReturn : UInt8 := 0x0d

def withoutReturn (line : Bytes) : Bytes :=
  if line.getLast? = some carriageReturn then line.dropLast else line

/-- The texts of the lines up to the first line that is not in UTF-8. -/
def readable : List Bytes → List (List Char)
  | [] => []
  | line :: rest =>
    match String.fromUTF8? ⟨line.toArray⟩ with
    | some text => text.toList :: readable rest
    | none => []

/-- The lines of a file. Byte order marks at its beginning do not count. -/
def lines (content : ByteArray) : List (List Char) :=
  let pieces := Text.pieces (· == lineFeed) content.toList
  match readable (pieces.dropLast.map withoutReturn ++ pieces.drop (pieces.length - 1)) with
  | [] => []
  | first :: rest => first.dropWhile (· == '\uFEFF') :: rest

def ofContent (base : List Char) (content : ByteArray) : RuleSet :=
  ⟨withoutLead dotSlash base, (lines content).filterMap Rule.ofLine?⟩

/-- A path as the rules see it. The name of a base that is a part of the path is taken off; a path
without a slash is a name and has no such part. -/
def relative (base path : List Char) : List Char :=
  let shorter := withoutLead dotSlash path
  if !(Files.Path.ofText (String.ofList base)).isHere && shorter.contains '/' &&
      base.isPrefixOf shorter then
    withoutLead ['/'] (shorter.drop base.length)
  else shorter

def verdict (set : RuleSet) (path : List Char) (isDirectory : Bool) : Verdict :=
  let shown := (String.ofList (relative set.base path)).toUTF8.toList
  let applies (rule : Rule) : Bool :=
    (isDirectory || !rule.onlyDirectories) && rule.glob.isMatch shown
  match set.rules.reverse.find? applies with
  | some rule => if rule.admits then .admitted else .ignored
  | none => .none

end RuleSet

end LexicalReport.Ignore
