/-! The pieces of a list between its separators. A list has one piece more than it has separators,
so a separator at an end leaves an empty piece there. -/

namespace LexicalReport.Text

/-- The pieces between the elements that are separators, the empty ones included. -/
def pieces {α : Type} (isSeparator : α → Bool) : List α → List (List α)
  | [] => [[]]
  | a :: rest =>
    if isSeparator a then [] :: pieces isSeparator rest
    else match pieces isSeparator rest with
      | [] => [[a]]
      | piece :: others => (a :: piece) :: others

end LexicalReport.Text
