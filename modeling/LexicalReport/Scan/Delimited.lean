/-! Literals and comments between delimiters. Each length is counted from just after the opening
delimiter and takes in the closing one. -/

namespace LexicalReport.Scan

def lineLength (cs : List Char) : Nat :=
  (cs.takeWhile (· != '\n')).length

/-- The length of a quoted text on one line. A backslash takes the next character with it, and the
line end closes nothing. -/
def quotedLength? (quote : Char) : List Char → Option Nat
  | [] => none
  | c :: rest =>
    if c = '\n' then none
    else if c = '\\' then
      match rest with
      | [] => none
      | d :: more => if d = '\n' then none else (quotedLength? quote more).map (· + 2)
    else if c = quote then some 1
    else (quotedLength? quote rest).map (· + 1)

theorem quotedLength?_line (quote : Char) (rest : List Char) :
    quotedLength? quote ('\n' :: rest) = none := by
  unfold quotedLength?
  exact if_pos rfl

theorem quotedLength?_escape (quote d : Char) (more : List Char) :
    quotedLength? quote ('\\' :: d :: more) =
      if d = '\n' then none else (quotedLength? quote more).map (· + 2) := by
  rw [quotedLength?]
  exact (if_neg (by decide)).trans (if_pos rfl)

theorem quotedLength?_close {quote : Char} (line : quote ≠ '\n') (slash : quote ≠ '\\')
    (rest : List Char) : quotedLength? quote (quote :: rest) = some 1 := by
  unfold quotedLength?
  rw [if_neg line, if_neg slash, if_pos rfl]

theorem quotedLength?_other {quote c : Char} (line : c ≠ '\n') (slash : c ≠ '\\')
    (other : c ≠ quote) (rest : List Char) :
    quotedLength? quote (c :: rest) = (quotedLength? quote rest).map (· + 1) := by
  rw [quotedLength?.eq_def]
  dsimp only
  rw [if_neg line, if_neg slash, if_neg other]

def rawLength? (quote : Char) (cs : List Char) : Option Nat :=
  (cs.findIdx? (· == quote)).map (· + 1)

theorem rawLength?_cons (quote c : Char) (cs : List Char) :
    rawLength? quote (c :: cs) =
      if c = quote then some 1 else (rawLength? quote cs).map (· + 1) := by
  by_cases same : c = quote <;>
    simp [rawLength?, List.findIdx?_cons, same, Function.comp_def]

def blockLength? : List Char → Option Nat
  | '*' :: '/' :: _ => some 2
  | _ :: rest => (blockLength? rest).map (· + 1)
  | [] => none

end LexicalReport.Scan
