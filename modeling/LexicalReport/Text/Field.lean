/-! Fields of a fixed least width. A width counts characters; a text that is already as wide stays
as it is. -/

namespace LexicalReport.Text

def spaces (n : Nat) : String :=
  String.ofList (List.replicate n ' ')

def padRight (width : Nat) (s : String) : String :=
  s ++ spaces (width - s.length)

def padLeft (width : Nat) (s : String) : String :=
  spaces (width - s.length) ++ s

def zeroPadded (width n : Nat) : String :=
  let digits := toString n
  String.ofList (List.replicate (width - digits.length) '0') ++ digits

def lines (ls : List String) : String :=
  String.join (ls.map (· ++ "\n"))

end LexicalReport.Text
