/-! Kinds of lexical tokens. A kind has a fixed upper-case name, by which reports show it and
readers find it again. Twenty-five kinds belong to reserved words. -/

namespace LexicalReport.Token

inductive Kind
  | identifier | intLiteral | floatLiteral | stringLiteral | runeLiteral | boolLiteral | plus
  | minus | times | divide | modulo | increment | decrement | equal | notEqual | less | lessEqual
  | greater | greaterEqual | logicalAnd | logicalOr | logicalNot | assign | declare | plusAssign
  | minusAssign | timesAssign | divideAssign | moduloAssign | bitAndAssign | bitOrAssign
  | bitXorAssign | shiftLeftAssign | shiftRightAssign | bitClearAssign | bitAnd | bitOr | bitXor
  | bitNot | shiftLeft | shiftRight | bitClear | channel | leftParen | rightParen | leftBrace
  | rightBrace | leftBracket | rightBracket | semicolon | comma | dot | colon | ellipsis
  | kwBreak | kwCase | kwChan | kwConst | kwContinue | kwDefault | kwDefer | kwElse
  | kwFallthrough | kwFor | kwFunc | kwGo | kwGoto | kwIf | kwImport | kwInterface | kwMap
  | kwPackage | kwRange | kwReturn | kwSelect | kwStruct | kwSwitch | kwType | kwVar
deriving DecidableEq, Repr

namespace Kind

def name : Kind → String
  | identifier => "ID"
  | intLiteral => "INT_LITERAL"
  | floatLiteral => "FLOAT_LITERAL"
  | stringLiteral => "STRING_LITERAL"
  | runeLiteral => "RUNE_LITERAL"
  | boolLiteral => "BOOL_LITERAL"
  | plus => "PLUS"
  | minus => "MINUS"
  | times => "TIMES"
  | divide => "DIVIDE"
  | modulo => "MOD"
  | increment => "INCREMENT"
  | decrement => "DECREMENT"
  | equal => "EQ"
  | notEqual => "NE"
  | less => "LT"
  | lessEqual => "LE"
  | greater => "GT"
  | greaterEqual => "GE"
  | logicalAnd => "AND"
  | logicalOr => "OR"
  | logicalNot => "NOT"
  | assign => "ASSIGN"
  | declare => "DECLARE_ASSIGN"
  | plusAssign => "PLUS_ASSIGN"
  | minusAssign => "MINUS_ASSIGN"
  | timesAssign => "TIMES_ASSIGN"
  | divideAssign => "DIVIDE_ASSIGN"
  | moduloAssign => "MOD_ASSIGN"
  | bitAndAssign => "AND_ASSIGN"
  | bitOrAssign => "OR_ASSIGN"
  | bitXorAssign => "XOR_ASSIGN"
  | shiftLeftAssign => "LSHIFT_ASSIGN"
  | shiftRightAssign => "RSHIFT_ASSIGN"
  | bitClearAssign => "AND_NOT_ASSIGN"
  | bitAnd => "BITAND"
  | bitOr => "BITOR"
  | bitXor => "BITXOR"
  | bitNot => "BITNOT"
  | shiftLeft => "LSHIFT"
  | shiftRight => "RSHIFT"
  | bitClear => "AND_NOT"
  | channel => "CHANNEL_OP"
  | leftParen => "LPAREN"
  | rightParen => "RPAREN"
  | leftBrace => "LBRACE"
  | rightBrace => "RBRACE"
  | leftBracket => "LBRACKET"
  | rightBracket => "RBRACKET"
  | semicolon => "SEMICOLON"
  | comma => "COMMA"
  | dot => "DOT"
  | colon => "COLON"
  | ellipsis => "ELLIPSIS"
  | kwBreak => "BREAK"
  | kwCase => "CASE"
  | kwChan => "CHAN"
  | kwConst => "CONST"
  | kwContinue => "CONTINUE"
  | kwDefault => "DEFAULT"
  | kwDefer => "DEFER"
  | kwElse => "ELSE"
  | kwFallthrough => "FALLTHROUGH"
  | kwFor => "FOR"
  | kwFunc => "FUNC"
  | kwGo => "GO"
  | kwGoto => "GOTO"
  | kwIf => "IF"
  | kwImport => "IMPORT"
  | kwInterface => "INTERFACE"
  | kwMap => "MAP"
  | kwPackage => "PACKAGE"
  | kwRange => "RANGE"
  | kwReturn => "RETURN"
  | kwSelect => "SELECT"
  | kwStruct => "STRUCT"
  | kwSwitch => "SWITCH"
  | kwType => "TYPE"
  | kwVar => "VAR"

/-- Every kind, in the order in which the report format lists them. -/
def all : List Kind := [
  .identifier, .intLiteral, .floatLiteral, .stringLiteral, .runeLiteral, .boolLiteral, .plus,
  .minus, .times, .divide, .modulo, .increment, .decrement, .equal, .notEqual, .less, .lessEqual,
  .greater, .greaterEqual, .logicalAnd, .logicalOr, .logicalNot, .assign, .declare, .plusAssign,
  .minusAssign, .timesAssign, .divideAssign, .moduloAssign, .bitAndAssign, .bitOrAssign,
  .bitXorAssign, .shiftLeftAssign, .shiftRightAssign, .bitClearAssign, .bitAnd, .bitOr, .bitXor,
  .bitNot, .shiftLeft, .shiftRight, .bitClear, .channel, .leftParen, .rightParen, .leftBrace,
  .rightBrace, .leftBracket, .rightBracket, .semicolon, .comma, .dot, .colon, .ellipsis,
  .kwBreak, .kwCase, .kwChan, .kwConst, .kwContinue, .kwDefault, .kwDefer, .kwElse,
  .kwFallthrough, .kwFor, .kwFunc, .kwGo, .kwGoto, .kwIf, .kwImport, .kwInterface, .kwMap,
  .kwPackage, .kwRange, .kwReturn, .kwSelect, .kwStruct, .kwSwitch, .kwType, .kwVar]

def ofName? (name : String) : Option Kind :=
  all.find? (fun kind => kind.name == name)

def keywords : List (String × Kind) := [
  ("break", .kwBreak), ("case", .kwCase), ("chan", .kwChan), ("const", .kwConst),
  ("continue", .kwContinue), ("default", .kwDefault), ("defer", .kwDefer), ("else", .kwElse),
  ("fallthrough", .kwFallthrough), ("for", .kwFor), ("func", .kwFunc), ("go", .kwGo),
  ("goto", .kwGoto), ("if", .kwIf), ("import", .kwImport), ("interface", .kwInterface),
  ("map", .kwMap), ("package", .kwPackage), ("range", .kwRange), ("return", .kwReturn),
  ("select", .kwSelect), ("struct", .kwStruct), ("switch", .kwSwitch), ("type", .kwType),
  ("var", .kwVar)]

def isKeyword (kind : Kind) : Bool :=
  keywords.any (fun entry => entry.2 == kind)

def ofWord (word : String) : Kind :=
  if word = "true" ∨ word = "false" then boolLiteral
  else match keywords.find? (fun entry => entry.1 == word) with
    | some entry => entry.2
    | none => identifier

end Kind

end LexicalReport.Token
