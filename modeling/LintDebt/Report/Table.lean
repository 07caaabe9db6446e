import LintDebt.LintResult
import LintDebt.Path
import LintDebt.Report.Style
import LintDebt.Text.Blank
import LintDebt.Text.Width
import LintDebt.Text.Wrap

/-!
# The table of a file

The diagnostics of a file stand in aligned rows: position, sign, message and rule.  A message that
is too wide for the terminal goes on in further lines, under its own column.

* `LintDebt.Table.cleanMessage`: the message of a diagnostic as its row shows it.
* `LintDebt.Table.Row`: the cells of a diagnostic.
* `LintDebt.Table.Widths`: the widths of the columns.
* `LintDebt.Table.render`: the lines of a table.
-/

namespace LintDebt.Table

open LintDebt.Text (displayWidth charWidth trimEnd)

/-! ## Texts -/

/-- The ruler of a terminal. -/
def ruler : Text.Ruler :=
  ⟨displayWidth, charWidth⟩

/-- The columns that a text takes. -/
def width (s : String) : Nat :=
  ruler.width s.toList

/-- A number of spaces. -/
def blanks (n : Nat) : String :=
  String.ofList (List.replicate n ' ')

/-- A text with spaces behind it up to a width. -/
def padEnd (n : Nat) (s : String) : String :=
  s ++ blanks (n - width s)

/-- A text with spaces in front of it up to a width. -/
def padStart (n : Nat) (s : String) : String :=
  blanks (n - width s) ++ s

/-! ## Messages -/

/-- Whether a character of a message gives way to a space: the control characters from U+0001 to
U+001A. -/
def breaksLine (c : Char) : Bool :=
  1 ≤ c.toNat && c.toNat ≤ 0x1A

/-- A text in which every run of control characters is one space; `inRun` says that the space of
the run at the start is already there. -/
def flatten (inRun : Bool) : List Char → List Char
  | [] => []
  | c :: rest =>
    if breaksLine c then
      if inRun then flatten true rest else ' ' :: flatten true rest
    else c :: flatten false rest

/-- A text without the full stop at its end. -/
def dropFullStop (s : List Char) : List Char :=
  if s.getLast? = some '.' then s.dropLast else s

/-- A text without an ending, if it has it. -/
def dropEnding (ending s : List Char) : List Char :=
  if ending.isSuffixOf s then s.take (s.length - ending.length) else s

/-- The message of a diagnostic as its row shows it: on one line, without a full stop at its end,
and without its rule in parentheses, which stands in a column of its own. -/
def cleanMessage (d : Diagnostic) : List Char :=
  dropEnding (" (" ++ d.ruleId ++ ")").toList (dropFullStop (flatten false d.text.toList))

/-! ## Rows -/

/-- The cells of a diagnostic. -/
structure Row where
  line : String
  column : String
  severity : Severity
  message : List Char
  rule : String

/-- A number of a position, which is not shown when it is zero. -/
def numberCell (n : UInt32) : String :=
  if n = 0 then "" else toString n.toNat

/-- The cells of a diagnostic. -/
def Row.of (d : Diagnostic) : Row where
  line := numberCell d.line
  column := numberCell d.column
  severity := d.severity
  message := cleanMessage d
  rule := d.ruleId

/-- Whether a diagnostic may stand above another: those without position come first, the others in
the order of lines and columns. -/
def mayPrecede (a b : Diagnostic) : Bool :=
  a.line < b.line || (a.line == b.line && a.column ≤ b.column)

/-- The rows of diagnostics; those of one position stay in their order. -/
def rows (diagnostics : List Diagnostic) : List Row :=
  (diagnostics.mergeSort mayPrecede).map Row.of

/-! ## Columns -/

/-- The widths of the columns. -/
structure Widths where
  line : Nat := 1
  column : Nat := 1
  symbol : Nat := 1
  message : Nat := 1
  rule : Nat := 1

namespace Widths

/-- Widths that leave room for one more row. -/
def widen (w : Widths) (row : Row) : Widths where
  line := max w.line (width row.line)
  column := max w.column (width row.column)
  symbol := max w.symbol (width row.severity.symbol)
  message := max w.message (displayWidth row.message)
  rule := max w.rule (width row.rule)

/-- Widths that leave room for all rows. -/
def ofRows (rows : List Row) : Widths :=
  rows.foldl widen {}

/-- The widths of all columns together. -/
def total (w : Widths) : Nat :=
  w.line + w.column + w.symbol + w.message + w.rule

/-- The columns that separate the cells of a row, and the last of the terminal, which stays
free. -/
def margins : Nat := 9

/-- A terminal counts as at least this wide. -/
def leastColumns : Nat := 80

/-- The width of the message column: that of the longest message, or what the terminal leaves for
it, but at least one. -/
def messageRoom (w : Widths) (columns : Option Nat) : Nat :=
  match columns with
  | none => w.message
  | some n =>
    let available := max n leastColumns
    if available > w.total + margins then w.message
    else max 1 (available - (w.total - w.message + margins))

/-- The columns in front of a message. -/
def messageIndent (w : Widths) : Nat :=
  w.line + w.column + w.symbol + 6

end Widths

/-! ## Lines -/

/-- The position of a row.  The colon stands where the two columns meet; without a line or without
a column there is no colon. -/
def positionCell (color : Bool) (w : Widths) (row : Row) : String :=
  if row.line.isEmpty || row.column.isEmpty then
    padStart w.line row.line ++ " " ++ padEnd w.column row.column
  else
    let joined := row.line ++ ":" ++ row.column
    let free := w.line + w.column + 1 - width joined
    let left := min (w.line - width row.line) free
    blanks left ++ Style.dim.paint color joined ++ blanks (free - left)

/-- The sign of a row in the middle of its column. -/
def symbolCell (color : Bool) (w : Widths) (row : Row) : String :=
  let free := w.symbol - 1
  blanks (free / 2) ++ row.severity.paintedSymbol color ++ blanks (free - free / 2)

/-- What stands in front of the message of a row. -/
def lead (color : Bool) (w : Widths) (row : Row) : String :=
  " " ++ positionCell color w row ++ "  " ++ symbolCell color w row ++ "  "

/-- The first line of a row. -/
def firstLine (color : Bool) (w : Widths) (room : Nat) (row : Row) (chunk : List Char) : String :=
  lead color w row ++ padEnd room (String.ofList chunk) ++ "  " ++ Style.dim.paint color row.rule

/-- A further line of a row. -/
def furtherLine (w : Widths) (chunk : List Char) : String :=
  blanks w.messageIndent ++ trimEnd (String.ofList chunk)

/-- The lines of a row. -/
def rowLines (color : Bool) (w : Widths) (room : Nat) (row : Row) : List String :=
  let chunks := ruler.wrap room row.message
  trimEnd (firstLine color w room row (chunks.headD [])) :: chunks.tail.map (furtherLine w)

/-- A source as the head of its table shows it: a source in angle brackets is no path. -/
def sourceLine (p : Presentation) (source : String) : String :=
  if source.toList.head? = some '<' then Style.underline.paint p.color source
  else Path.relativeTo p.cwd source

/-- The lines of a table, with the source at its head if there is one. -/
def tableLines (p : Presentation) (source : String) (diagnostics : List Diagnostic) :
    List String :=
  let rows := rows diagnostics
  let w := Widths.ofRows rows
  (if source.isEmpty then [] else [sourceLine p source]) ++
    rows.flatMap (rowLines p.color w (w.messageRoom p.columns))

/-- A table behind an empty line; nothing when there are no diagnostics. -/
def render (p : Presentation) (source : String) (diagnostics : List Diagnostic) : String :=
  if diagnostics.isEmpty then ""
  else String.join (("" :: tableLines p source diagnostics).map (· ++ "\n"))

end LintDebt.Table
