import LexicalReport.Token.Kind

/-! Operators and delimiters. The table lists longer spellings first, so the first spelling that
begins a text is also the longest that does. -/

namespace LexicalReport.Scan

open Token (Kind)

def operators : List (List Char × Kind) := [
  (['<', '<', '='], .shiftLeftAssign), (['>', '>', '='], .shiftRightAssign),
  (['&', '^', '='], .bitClearAssign), (['.', '.', '.'], .ellipsis), (['<', '<'], .shiftLeft),
  (['>', '>'], .shiftRight), (['&', '^'], .bitClear), (['+', '='], .plusAssign),
  (['-', '='], .minusAssign), (['*', '='], .timesAssign), (['/', '='], .divideAssign),
  (['%', '='], .moduloAssign), (['&', '='], .bitAndAssign), (['|', '='], .bitOrAssign),
  (['^', '='], .bitXorAssign), (['&', '&'], .logicalAnd), (['|', '|'], .logicalOr),
  (['<', '-'], .channel), (['+', '+'], .increment), (['-', '-'], .decrement),
  (['=', '='], .equal), (['!', '='], .notEqual), (['<', '='], .lessEqual),
  (['>', '='], .greaterEqual), ([':', '='], .declare), (['+'], .plus), (['-'], .minus),
  (['*'], .times), (['/'], .divide), (['%'], .modulo), (['&'], .bitAnd), (['|'], .bitOr),
  (['^'], .bitXor), (['~'], .bitNot), (['<'], .less), (['>'], .greater), (['='], .assign),
  (['!'], .logicalNot), (['('], .leftParen), ([')'], .rightParen), (['['], .leftBracket),
  ([']'], .rightBracket), (['{'], .leftBrace), (['}'], .rightBrace), ([','], .comma),
  ([';'], .semicolon), (['.'], .dot), ([':'], .colon)]

def operatorAt (cs : List Char) : Option (Kind × Nat) :=
  (operators.find? (fun entry => entry.1.isPrefixOf cs)).map
    (fun entry => (entry.2, entry.1.length))

end LexicalReport.Scan
