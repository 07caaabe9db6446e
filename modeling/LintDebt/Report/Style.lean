import LintDebt.Severity

/-!
# Styles of a terminal

* `LintDebt.Style`: how a text may stand out.
* `LintDebt.Style.paint`: a text in a style.
* `LintDebt.Severity.symbol`: the sign of a severity, and its style.
* `LintDebt.Presentation`: where and how a report is shown.
-/

namespace LintDebt

/-- How a text may stand out. -/
inductive Style where
  | red
  | green
  | yellow
  | cyan
  | dim
  | underline
  deriving DecidableEq, Repr

namespace Style

/-- The code that turns a style on. -/
def onCode : Style → Nat
  | .red => 31
  | .green => 32
  | .yellow => 33
  | .cyan => 36
  | .dim => 2
  | .underline => 4

/-- The code that turns a style off. -/
def offCode : Style → Nat
  | .red | .green | .yellow | .cyan => 39
  | .dim => 22
  | .underline => 24

/-- The sequence of characters that a terminal takes for a code. -/
def sequence (code : Nat) : String :=
  "\x1b[" ++ toString code ++ "m"

/-- A text in a style; without colour, and when there is nothing to show, the text alone. -/
def paint (style : Style) (color : Bool) (s : String) : String :=
  if color && !s.isEmpty then sequence style.onCode ++ s ++ sequence style.offCode else s

@[simp] theorem paint_plain (style : Style) (s : String) : style.paint false s = s := by
  simp [paint]

@[simp] theorem paint_empty (style : Style) (color : Bool) : style.paint color "" = "" := by
  simp [paint]

end Style

namespace Severity

/-- The sign of a severity. -/
def symbol : Severity → String
  | .error => "✖"
  | .warning => "⚠"
  | .todo => "ℹ"
  | .off => "⏾"

/-- The style of a severity's sign. -/
def style : Severity → Style
  | .error => .red
  | .warning => .yellow
  | .todo => .cyan
  | .off => .green

/-- The sign of a severity in its style. -/
def paintedSymbol (color : Bool) (s : Severity) : String :=
  s.style.paint color s.symbol

end Severity

/-- Where and how a report is shown. -/
structure Presentation where
  /-- Whether the report is coloured. -/
  color : Bool := false
  /-- The width of the terminal, if there is one. -/
  columns : Option Nat := none
  /-- The directory that shown paths are seen from. -/
  cwd : String
  deriving DecidableEq, Repr

end LintDebt
