import LexicalReport.Text.Field
import LexicalReport.Token.Kind

/-! A token carries the exact source text it was cut from, and the place of its first character.
Lines and columns count from one, columns in characters. -/

namespace LexicalReport

structure Token where
  kind : Token.Kind
  value : String
  line : UInt32
  column : UInt32
deriving DecidableEq, Repr

namespace Token

def kindWidth : Nat := 20

def valueWidth : Nat := 30

def placeWidth : Nat := 4

def placeField (n : UInt32) : String :=
  Text.padLeft placeWidth (toString n.toNat)

def lineOf (kind value : String) (token : Token) : String :=
  "Token: " ++ kind ++ " | Value: " ++ value ++ " | Line: " ++ placeField token.line ++
    " | Column: " ++ placeField token.column

def displayLine (token : Token) : String :=
  lineOf (Text.padRight kindWidth token.kind.name) (Text.padRight valueWidth token.value) token

end Token

end LexicalReport
