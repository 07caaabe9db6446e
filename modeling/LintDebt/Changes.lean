import LintDebt.LintResult
import LintDebt.Path
import LintDebt.Todo.Basic

/-!
# Changes to results

A run does not touch the results while it works on a file; it collects what should change, and
the changes are applied afterwards.

* `LintDebt.Changes`: severities to set and diagnostics to add.
* `LintDebt.Changes.demote`, `violate`: collect a change.
* `LintDebt.Changes.apply`: the results with the changes, and what was done.
* `LintDebt.LintResult.settleAll`: the results with their flags brought up to date.
-/

namespace LintDebt

/-- The rule of the diagnostic that stands for a todo whose error is gone. -/
def invalidTodoRule : String := "invalid-todo-violation-rule"

/-- The place of the first result for a file, seen from a base directory. -/
def LintResult.indexOf? (results : List LintResult) (baseDir filePath : String) : Option Nat :=
  results.findIdx? fun r => Path.relativeTo baseDir r.sourcePath == filePath

/-- A severity to set. -/
structure Demotion where
  filePath : String
  origin : Nat
  severity : Severity
  deriving DecidableEq, Repr

/-- A diagnostic to add. -/
structure Violation where
  filePath : String
  diagnostic : Diagnostic
  deriving DecidableEq, Repr

/-- Severities to set and diagnostics to add. -/
structure Changes where
  demotions : List Demotion := []
  violations : List Violation := []
  deriving DecidableEq, Repr

/-- What was done when changes were applied. -/
structure Applied where
  /-- Severities set. -/
  demoted : Nat := 0
  /-- Severities not set, because the file or the diagnostic is not there. -/
  skipped : Nat := 0
  /-- Diagnostics added. -/
  violations : Nat := 0
  /-- Results made to hold an added diagnostic. -/
  createdResults : Nat := 0
  deriving DecidableEq, Repr

/-- Results under change, with what was done to them so far. -/
structure Applying where
  results : List LintResult
  applied : Applied := {}

/-- The error that stands for a todo whose own error is gone. -/
def Todo.violation (t : Todo) : Diagnostic where
  rule := some invalidTodoRule
  severity := .error
  text := "Todo violation passes \x60" ++ t.ruleId ++
    "\x60 rule. Please run with \x60CLEAN_TODO=1\x60 env var to remove this todo from the todo list."

namespace Applying

/-- Sets the severity that a demotion asks for, if its file and diagnostic are there. -/
def demote (baseDir : String) (a : Applying) (d : Demotion) : Applying :=
  let skipped := { a with applied := { a.applied with skipped := a.applied.skipped + 1 } }
  match LintResult.indexOf? a.results baseDir d.filePath with
  | none => skipped
  | some i =>
    match a.results[i]? with
    | none => skipped
    | some r =>
      if d.origin < r.warnings.length then
        { results := a.results.modify i fun r =>
            { r with warnings := r.warnings.modify d.origin ({ · with severity := d.severity }) }
          applied := { a.applied with demoted := a.applied.demoted + 1 } }
      else skipped

/-- Adds the diagnostic of a violation to its file, in a new result if there is none. -/
def violate (baseDir : String) (a : Applying) (v : Violation) : Applying :=
  match LintResult.indexOf? a.results baseDir v.filePath with
  | some i =>
    { results := a.results.modify i fun r => { r with warnings := r.warnings ++ [v.diagnostic] }
      applied := { a.applied with violations := a.applied.violations + 1 } }
  | none =>
    { results := a.results ++
        [{ source := some (Path.join baseDir v.filePath), warnings := [v.diagnostic] }]
      applied := { a.applied with
        violations := a.applied.violations + 1
        createdResults := a.applied.createdResults + 1 } }

end Applying

namespace Changes

/-- Whether there is nothing to change. -/
def isEmpty (c : Changes) : Bool :=
  c.demotions.isEmpty && c.violations.isEmpty

/-- Collects the severity of the diagnostic that a todo came from; a todo without origin changes
nothing. -/
def demote (c : Changes) (t : Todo) (severity : Severity) : Changes :=
  match t.origin with
  | some origin => { c with demotions := c.demotions ++ [⟨t.filePath, origin, severity⟩] }
  | none => c

/-- Collects the error for a todo whose own error is gone. -/
def violate (c : Changes) (t : Todo) : Changes :=
  { c with violations := c.violations ++ [⟨t.filePath, t.violation⟩] }

/-- The results with the changes: severities first, so that origins still name the diagnostics
they were taken from. -/
def apply (c : Changes) (baseDir : String) (results : List LintResult) : Applying :=
  c.violations.foldl (Applying.violate baseDir)
    (c.demotions.foldl (Applying.demote baseDir) { results })

end Changes

namespace LintResult

/-- A result whose flag says whether it has live errors. -/
def settle (r : LintResult) : LintResult :=
  { r with errored := r.hasLiveErrors }

/-- The results with their flags brought up to date. -/
def settleAll (results : List LintResult) : List LintResult :=
  results.map settle

/-- Whether any result is flagged. -/
def anyErrored (results : List LintResult) : Bool :=
  results.any (·.errored)

end LintResult

end LintDebt
