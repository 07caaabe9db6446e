import LintDebt.Decay
import LintDebt.Report.Table

/-!
# The report on a console

* `LintDebt.pluralize`: a noun for a number of things.
* `LintDebt.Summary`: what a run has changed in the ledger, as one line.
* `LintDebt.Console.visible`: the diagnostics of a result that a report shows.
* `LintDebt.Console.Counts`: how many diagnostics weigh how much.
* `LintDebt.Console.render`: the report.
-/

namespace LintDebt

open LintDebt.Text (trim)

/-- A noun for a number of things. -/
def pluralize (word : String) (count : Nat) : String :=
  if count = 1 then word else word ++ "s"

/-- A number of things. -/
def counted (count : Nat) (word : String) : String :=
  toString count ++ " " ++ pluralize word count

/-- What a run has changed in the ledger. -/
structure Summary where
  added : Nat := 0
  removed : Nat := 0
  /-- The general window of new todos. -/
  window : Option DecayWindow := none

namespace Summary

/-- A side of the window; a side of no days is not worth mentioning. -/
def side (name : String) (days : Option UInt32) : List String :=
  match days with
  | some n => if n = 0 then [] else [name ++ " after " ++ toString n.toNat]
  | none => []

/-- A summary as one line. -/
def text (s : Summary) : String :=
  let window := s.window.getD {}
  let sides := side "warn" window.warn ++ side "error" window.error
  "✔ " ++ toString s.added ++ " todos created, " ++ toString s.removed ++ " todos removed" ++
    if sides.isEmpty then "" else " (" ++ ", ".intercalate sides ++ " days)"

end Summary

namespace Console

/-- What a report includes. -/
structure Options where
  /-- Whether todos are shown. -/
  includeTodos : Bool := false
  /-- Whether the ledger was to be brought up to date. -/
  updating : Bool := false
  /-- What has changed in the ledger; shown only when the ledger was to be brought up to date. -/
  summary : Option Summary := none

/-! ## Notices -/

/-- The notices of invalid options, each text once. -/
def invalidOptions (color : Bool) (results : List LintResult) : String :=
  let texts := (results.flatMap fun r => r.invalidOptions.map (·.text)).eraseDups
  "\n" ++ String.join (texts.map fun text => Style.red.paint color "Invalid Option: " ++ text ++ "\n")

/-- Where a deprecation is explained. -/
def reference (color : Bool) (d : Deprecation) : String :=
  match d.reference with
  | some target =>
    Style.dim.paint color " See: " ++ Style.dim.paint color (Style.underline.paint color target)
  | none => ""

/-- The notices of deprecations, each text once. -/
def deprecations (color : Bool) (results : List LintResult) : String :=
  let notices := (results.flatMap (·.deprecations)).eraseDupsBy fun a b => a.text == b.text
  if notices.isEmpty then ""
  else "\n" ++ String.join (notices.map fun d =>
    Style.yellow.paint color "Deprecation Warning: " ++ d.text ++ reference color d ++ "\n")

/-! ## Diagnostics -/

/-- The diagnostics of a result, followed by its parse errors. -/
def allDiagnostics (r : LintResult) : List Diagnostic :=
  r.warnings ++ r.parseErrors.map ParseError.toDiagnostic

/-- Whether a report shows a diagnostic of some severity. -/
def shows (includeTodos : Bool) : Severity → Bool
  | .off => false
  | .todo => includeTodos
  | .warning | .error => true

/-- The diagnostics of a result that a report shows. -/
def visible (includeTodos : Bool) (r : LintResult) : List Diagnostic :=
  (allDiagnostics r).filter fun d => shows includeTodos d.severity

/-- How many diagnostics weigh how much. -/
structure Counts where
  errors : Nat := 0
  warnings : Nat := 0
  todos : Nat := 0
  deriving DecidableEq, Repr

namespace Counts

/-- One more diagnostic, by its severity.  A todo counts only in a report that is to include todos. -/
def add (includeTodos : Bool) (c : Counts) : Severity → Counts
  | .error => { c with errors := c.errors + 1 }
  | .warning => { c with warnings := c.warnings + 1 }
  | .todo => if includeTodos then { c with todos := c.todos + 1 } else c
  | .off => c

/-- How many diagnostics are problems. -/
def problems (c : Counts) : Nat :=
  c.errors + c.warnings

/-- The counts as one line. -/
def text (includeTodos : Bool) (c : Counts) : String :=
  counted c.problems "problem" ++ " (" ++ counted c.errors "error" ++ ", " ++
    counted c.warnings "warning" ++
    (if includeTodos then ", " ++ counted c.todos "todo" else "") ++ ")"

end Counts

/-! ## The report -/

/-- The notices and tables of a report. -/
def body (o : Options) (p : Presentation) (results : List LintResult) : String :=
  let shown := results.filter fun r => !r.ignored
  trim (invalidOptions p.color results ++ deprecations p.color results ++
    String.join (shown.map fun r => Table.render p r.sourcePath (visible o.includeTodos r)))

/-- The counts of a report: a pass over all diagnostics of the results that are not ignored. -/
def counts (o : Options) (results : List LintResult) : Counts :=
  (results.filter fun r => !r.ignored).foldl
    (fun c r => (allDiagnostics r).foldl (fun c d => c.add o.includeTodos d.severity) c) {}

/-- The report: notices and tables, the counts, and the summary. -/
def render (o : Options) (p : Presentation) (results : List LintResult) : String :=
  let body := body o p results
  let counts := counts o results
  let tally :=
    if counts.problems + counts.todos > 0 then counts.text o.includeTodos ++ "\n\n" else ""
  (if body.isEmpty then "" else "\n" ++ body ++ "\n\n" ++ tally) ++
    match o.summary with
    | some summary => if o.updating then summary.text else ""
    | none => ""

end Console

end LintDebt
