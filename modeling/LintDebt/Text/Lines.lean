import LintDebt.Text.Split

/-!
# Lines of a text

A line ends at a line feed, and a carriage return right before that line feed belongs to the
ending.  A text that ends with a line feed has no further, empty line after it.

* `LintDebt.Text.lines`: the lines of a text, without their endings.
-/

namespace LintDebt.Text

/-- A piece that ended at a line feed, without the carriage return of its ending. -/
def dropReturn (piece : List Char) : List Char :=
  if piece.getLast? = some '\r' then piece.dropLast else piece

/-- The lines of the pieces between line feeds: the last piece counts only when it holds
something, and only the others have an ending to lose. -/
def linesOfPieces : List (List Char) → List (List Char)
  | [] => []
  | [last] => if last.isEmpty then [] else [last]
  | piece :: rest => dropReturn piece :: linesOfPieces rest

/-- The lines of a text, without their endings. -/
def lines (s : String) : List String :=
  (linesOfPieces (split '\n' s.toList)).map String.ofList

end LintDebt.Text
