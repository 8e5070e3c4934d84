/-! Styled text for terminals. A style opens with its codes and is closed by a reset; a reset inside
the styled text would end it early, so each one is followed by the opening again. -/

namespace LexicalReport

inductive Style
  | bold
  | dimmed
  | cyan
  | yellow
  | boldGreen
  | boldRed
deriving DecidableEq, Repr

namespace Style

def codes : Style → List Char
  | bold => ['1']
  | dimmed => ['2']
  | cyan => ['3', '6']
  | yellow => ['3', '3']
  | boldGreen => ['1', ';', '3', '2']
  | boldRed => ['1', ';', '3', '1']

def escape : Char := '\x1b'

def opening (s : Style) : List Char :=
  escape :: '[' :: s.codes ++ ['m']

def reset : List Char :=
  [escape, '[', '0', 'm']

def reopened (s : Style) : List Char → List Char
  | [] => []
  | c :: rest =>
    if reset.isPrefixOf (c :: rest) then
      reset ++ s.opening ++ reopened s (rest.drop (reset.length - 1))
    else c :: reopened s rest
termination_by cs => cs.length
decreasing_by
  · simp only [List.length_drop, List.length_cons]; omega
  · simp only [List.length_cons]; omega

def paint (color : Bool) (s : Style) (text : String) : String :=
  if color then
    String.ofList (s.opening ++ s.reopened text.toList ++ reset)
  else text

/-- Colors are on if they are forced, or if the output is a terminal and nothing turns them off.
A variable that holds a zero counts as turned off. -/
def wanted (lookup : String → Option String) (isTerminal : Bool) : Bool :=
  if (lookup "CLICOLOR_FORCE").any (· != "0") then true
  else if (lookup "NO_COLOR").isSome then false
  else isTerminal && (lookup "CLICOLOR").all (· != "0")

end Style

end LexicalReport
