import LexicalReport.Ignore.Glob
import LexicalReport.Text.Blank

/-! Ignore files. Each line is a rule: a pattern that leaves paths out, or one after an exclamation
mark that lets them in again. A pattern with a slash before its end is tied to the directory of its
file, any other pattern applies at every depth below it. -/

namespace LexicalReport.Ignore

structure Rule where
  glob : Glob
  admits : Bool
  onlyDirectories : Bool

inductive Verdict
  | none
  | ignored
  | admitted
deriving DecidableEq, Repr

def Verdict.orElse (first second : Verdict) : Verdict :=
  if first = .none then second else first

namespace Rule

def endsWith (ending cs : List Char) : Bool :=
  ending.isSuffixOf cs

/-- A line without the blanks at its end, unless the last of them is escaped. -/
def trimmedLine (cs : List Char) : List Char :=
  if endsWith ['\\', ' '] cs then cs else Text.trimRightChars cs

/-- A pattern without a slash at its end, and whether it had one. A backslash before the slash goes
with it. -/
def withoutSlash (cs : List Char) : List Char × Bool :=
  if endsWith ['/'] cs then
    let shorter := cs.dropLast
    (if endsWith ['\\'] shorter then shorter.dropLast else shorter, true)
  else (cs, false)

/-- The whole pattern of a rule. One that is not tied to a directory may begin in any of them, and
one that ends in a double star means what is inside a directory, not the directory. -/
def fullPattern (tied : Bool) (cs : List Char) : List Char :=
  let lead := if tied || cs.contains '/' || cs = ['*', '*'] then cs else ['*', '*', '/'] ++ cs
  if endsWith ['/', '*', '*'] lead then lead ++ ['/', '*'] else lead

def ofLine? (line : List Char) : Option Rule := do
  if line.head? = some '#' then none
  else
    let cs := trimmedLine line
    if cs.isEmpty then none
    else
      let escaped := ['\\', '!'].isPrefixOf cs || ['\\', '#'].isPrefixOf cs
      let admits := !escaped && cs.head? = some '!'
      let body := if escaped || admits then cs.drop 1 else cs
      let tied := !escaped && body.head? = some '/'
      let (pattern, onlyDirectories) := withoutSlash (if tied then body.drop 1 else body)
      return ⟨← Glob.ofPattern? (fullPattern tied pattern), admits, onlyDirectories⟩

end Rule

end LexicalReport.Ignore
