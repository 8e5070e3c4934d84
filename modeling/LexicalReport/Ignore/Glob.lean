/-! Glob patterns. A pattern is matched against the bytes of a whole path, and only the double star
crosses slashes. A character outside ASCII is the sequence of its bytes, so a question mark stands
for one of them, and a bracket for any single one. -/

namespace LexicalReport.Ignore

/-- `anyLead` stands for any directories in front of a path, `anyBetween` for a slash or any
directories between two slashes, and `anyBelow` for everything below a directory. -/
inductive Piece
  | literal (c : Char)
  | anyOne
  | anyRun
  | anyLead
  | anyBetween
  | anyBelow
  | oneOf (negated : Bool) (ranges : List (Char × Char))
  | alternatives (branches : List (List Piece))

abbrev Bytes := List UInt8

def charBytes (c : Char) : Bytes :=
  (String.singleton c).toUTF8.toList

def slash : UInt8 := 0x2f

def afterBytes? : Bytes → Bytes → Option Bytes
  | [], bs => some bs
  | a :: rest, b :: bs => if a = b then afterBytes? rest bs else none
  | _ :: _, [] => none

def suffixes : Bytes → List Bytes
  | [] => [[]]
  | b :: rest => (b :: rest) :: suffixes rest

def afterRun : Bytes → List Bytes
  | [] => [[]]
  | b :: rest => (b :: rest) :: if b = slash then [] else afterRun rest

def afterSlashes : Bytes → List Bytes
  | [] => []
  | b :: rest => if b = slash then rest :: afterSlashes rest else afterSlashes rest

/-- Whether a byte is in a range of characters. Of two characters with several bytes, the range
reaches from the last byte of the one to the first of the other. -/
def inRange (range : Char × Char) (b : UInt8) : Bool :=
  let low := charBytes range.1
  let high := charBytes range.2
  if range.1 = range.2 then low.contains b
  else low.dropLast.contains b || high.tail.contains b ||
    (low.getLastD 0 ≤ b && b ≤ high.headD 0)

mutual

def Piece.rests : Piece → Bytes → List Bytes
  | .literal c, bs => (afterBytes? (charBytes c) bs).toList
  | .anyOne, b :: rest => if b = slash then [] else [rest]
  | .anyOne, [] => []
  | .anyRun, bs => afterRun bs
  | .anyLead, bs => bs :: afterSlashes bs
  | .anyBetween, b :: rest => if b = slash then rest :: afterSlashes rest else []
  | .anyBetween, [] => []
  | .anyBelow, b :: rest => if b = slash then suffixes rest else []
  | .anyBelow, [] => []
  | .oneOf negated ranges, b :: rest =>
    if ranges.any (fun range => inRange range b) != negated then [rest] else []
  | .oneOf _ _, [] => []
  | .alternatives branches, bs =>
    if branches.all List.isEmpty then [bs] else branchRests branches bs

def sequenceRests : List Piece → List Bytes → List Bytes
  | [], texts => texts
  | piece :: pieces, texts => sequenceRests pieces (texts.flatMap piece.rests).eraseDups

/-- What may be left after one of several branches. An empty branch is none. -/
def branchRests : List (List Piece) → Bytes → List Bytes
  | [], _ => []
  | branch :: branches, bs =>
    (if branch.isEmpty then [] else sequenceRests branch [bs]) ++ branchRests branches bs

end

structure Glob where
  pieces : List Piece

namespace Glob

def isMatch (glob : Glob) (path : Bytes) : Bool :=
  match glob.pieces with
  | [.anyLead] => true
  | pieces => (sequenceRests pieces [path]).any List.isEmpty

def closeRange? (high : Char) : List (Char × Char) → Option (List (Char × Char))
  | (low, _) :: others => if high < low then none else some ((low, high) :: others)
  | [] => none

/-- How far the reading of a bracket has come: the ranges, latest first, and whether a dash has just
opened a range. -/
structure Bracket where
  ranges : List (Char × Char)
  afterDash : Bool

inductive BracketResult
  | closed (ranges : List (Char × Char)) (rest : List Char)
  | unclosed
  | backwards

/-- A bracket after its opening. A closing bracket or a dash that comes first stands for itself. -/
def bracket : (isFirst : Bool) → Bracket → List Char → BracketResult
  | _, _, [] => .unclosed
  | isFirst, ⟨ranges, afterDash⟩, c :: rest =>
    if c = ']' ∧ !isFirst then
      .closed ((if afterDash then ('-', '-') :: ranges else ranges).reverse) rest
    else if c = '-' ∧ !isFirst ∧ !afterDash then bracket false ⟨ranges, true⟩ rest
    else if afterDash then
      match closeRange? c ranges with
      | some longer => bracket false ⟨longer, false⟩ rest
      | none => .backwards
    else bracket false ⟨(c, c) :: ranges, false⟩ rest

structure Group where
  branches : List (List Piece)
  before : List Piece

/-- How far the reading of a pattern has come. The pieces are those of the innermost open branch,
latest first. -/
structure Draft where
  pieces : List Piece
  groups : List Group

def Draft.push (draft : Draft) (piece : Piece) : Draft :=
  { draft with pieces := piece :: draft.pieces }

/-- A double star, given the character in front of it and those after it. It crosses slashes only
where it fills a whole part of the path; elsewhere it is two single stars. -/
def doubleStar (previous : Option Char) (draft : Draft) (rest : List Char) : Draft × List Char :=
  let plain := ((draft.push .anyRun).push .anyRun, rest)
  match draft.pieces with
  | [] =>
    match rest with
    | [] => (draft.push .anyLead, [])
    | c :: more => if c = '/' then (draft.push .anyLead, more) else plain
  | last :: others =>
    if previous != some '/' then plain
    else
      let replaced (piece : Piece) : Draft :=
        match last with
        | .anyLead | .anyBelow => draft
        | _ => { draft with pieces := piece :: others }
      match rest with
      | [] => (replaced .anyBelow, [])
      | c :: more =>
        if c = '/' then (replaced .anyBetween, more)
        else if (c = ',' ∨ c = '}') ∧ !draft.groups.isEmpty then (replaced .anyBelow, rest)
        else plain

/-- The pieces of a pattern. A bracket that is not closed stands for itself; an escape at the end, a
range that runs backwards and braces that do not match make no pattern. -/
def pieces? : Nat → Option Char → Draft → List Char → Option (List Piece)
  | 0, _, _, _ => none
  | _ + 1, _, draft, [] => if draft.groups.isEmpty then some draft.pieces.reverse else none
  | fuel + 1, previous, draft, c :: rest =>
    match c with
    | '?' => pieces? fuel (some c) (draft.push .anyOne) rest
    | '*' =>
      match rest with
      | '*' :: more =>
        let (grown, after) := doubleStar previous draft more
        pieces? fuel (some (if after.length < more.length then '/' else '*')) grown after
      | _ => pieces? fuel (some c) (draft.push .anyRun) rest
    | '[' =>
      let negated := rest.head? = some '!' ∨ rest.head? = some '^'
      match bracket true ⟨[], false⟩ (if negated then rest.tail else rest) with
      | .closed ranges after => pieces? fuel (some ']') (draft.push (.oneOf negated ranges)) after
      | .unclosed => pieces? fuel (some c) (draft.push (.literal c)) rest
      | .backwards => none
    | '{' => pieces? fuel (some c) ⟨[], ⟨[], draft.pieces⟩ :: draft.groups⟩ rest
    | '}' =>
      match draft.groups with
      | [] => none
      | ⟨branches, before⟩ :: outer =>
        let group := Piece.alternatives (branches ++ [draft.pieces.reverse])
        pieces? fuel (some c) ⟨group :: before, outer⟩ rest
    | ',' =>
      match draft.groups with
      | [] => pieces? fuel (some c) (draft.push (.literal c)) rest
      | ⟨branches, before⟩ :: outer =>
        let group : Group := ⟨branches ++ [draft.pieces.reverse], before⟩
        pieces? fuel (some c) ⟨[], group :: outer⟩ rest
    | '\\' =>
      match rest with
      | [] => none
      | escaped :: more => pieces? fuel (some escaped) (draft.push (.literal escaped)) more
    | _ => pieces? fuel (some c) (draft.push (.literal c)) rest

def ofPattern? (pattern : List Char) : Option Glob :=
  (pieces? (pattern.length + 1) none ⟨[], []⟩ pattern).map Glob.mk

end Glob

end LexicalReport.Ignore
