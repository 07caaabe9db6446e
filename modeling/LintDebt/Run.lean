import LintDebt.Candidates
import LintDebt.Changes
import LintDebt.Ledger.Basic
import LintDebt.Report.Format

/-!
# Runs

A run holds the results of a linter against a ledger, file by file: errors that the ledger knows
are demoted, what no error reproduces is cleaned up or reported, and in update mode the errors
become todos.  At its end stands a report.

* `LintDebt.RunOptions`: what a run is to do.
* `LintDebt.RunError`: the causes for which a run fails, and their wording.
* `LintDebt.Run.reconcile`: what one file brings about.
* `LintDebt.Run.formatter`: a whole run.
-/

namespace LintDebt

/-- The engine whose results are read when no other is named. -/
def defaultEngine : String := "stylelint"

/-- What a run is to do. -/
structure RunOptions where
  /-- The directory that file paths are seen from. -/
  baseDir : String
  engine : String := defaultEngine
  /-- Whether errors become todos. -/
  updating : Bool := false
  /-- Whether todos are reported. -/
  includeTodos : Bool := false
  /-- Whether todos that no error reproduces, or that have expired, are removed. -/
  cleaning : Bool := true
  /-- Whether the storage is shortened, and nothing else done. -/
  compactOnly : Bool := false
  /-- The name of the format to report in; without one the report is for the console. -/
  format : Option String := none
  /-- The window that takes precedence over the general one. -/
  overrides : DecayWindow := {}
  presentation : Presentation

/-- The causes for which a run fails. -/
inductive RunError where
  | invalidConfig (message : String)
  /-- A window was given for new todos, but no todos were to be made. -/
  | overrideWithoutUpdate
  | unknownFormat (name : String)
  | unknownSeverity (code : Int)
  | ledger (cause : LedgerError)
  deriving DecidableEq, Repr

/-- The wording of a run's error. -/
def RunError.message : RunError → String
  | .invalidConfig message => message
  | .overrideWithoutUpdate =>
    "Using \x60TODO_DAYS_TO_WARN\x60 or \x60TODO_DAYS_TO_ERROR\x60 is only valid when the " ++
      "\x60UPDATE_TODO\x60 environment variable is being used."
  | .unknownFormat name => "You must use a valid FORMAT_TODO_AS: " ++ name
  | .unknownSeverity code => "Unknown severity code: " ++ toString code
  | .ledger cause => cause.message

/-- What a run has done. -/
structure Tally where
  /-- Todos added to the ledger. -/
  added : Nat := 0
  /-- Todos removed from it. -/
  removed : Nat := 0
  demoted : Nat := 0
  violations : Nat := 0
  skipped : Nat := 0
  deriving DecidableEq, Repr

/-- What a run answers. -/
structure RunOutcome where
  output : String
  /-- Whether any error is left. -/
  errored : Bool
  tally : Tally
  results : List LintResult
  /-- The source paths asked for, in order. -/
  reads : List String

/-- A step of a run; what it has changed in the ledger before it fails stays changed. -/
abbrev RunM (σ : Type) := ExceptT RunError (StateM σ)

namespace Run

variable {σ : Type} [Ledger σ]

/-! ## Steps -/

/-- A step on the ledger as a step of a run. -/
def onLedger {α : Type} (step : LedgerM σ α) : RunM σ α :=
  ExceptT.adapt RunError.ledger step

/-- A step that fails when a value is an error, and answers the value otherwise. -/
def ofExcept {α : Type} : Except RunError α → RunM σ α
  | .ok a => pure a
  | .error e => throw e

/-! ## One file -/

/-- What one file brings about. -/
structure FileStep where
  changes : Changes := {}
  added : Nat := 0
  removed : Nat := 0
  reads : List String := []

/-- The changes for reproduced todos: the diagnostics they came from take the severities of the
todos, unless that is an error. -/
def demotions (l : σ) : List Todo → Changes → Except RunError Changes
  | [], changes => .ok changes
  | t :: rest, changes =>
    match Severity.ofCode? (Ledger.severityCode l t) with
    | none => .error (.unknownSeverity (Ledger.severityCode l t))
    | some .error => demotions l rest changes
    | some severity => demotions l rest (changes.demote t severity)

/-- What one file brings about once its candidates are known and written. -/
def settle (o : RunOptions) (candidates : Batch) (scope : Scope) : RunM σ FileStep := do
  let batches ← onLedger (Ledger.sortOut candidates scope)
  let stale := batches.remove.union batches.expired
  if o.cleaning then
    if !stale.isEmpty then onLedger (Ledger.exchange .empty stale)
    let changes ← ofExcept (demotions (← get) batches.stable.toList {})
    return { changes, removed := stale.size }
  else
    let violations := batches.remove.toList.foldl Changes.violate {}
    let changes ← ofExcept (demotions (← get) batches.stable.toList violations)
    return { changes }

/-- What one file brings about.  A result without a source path brings about nothing. -/
def reconcile (o : RunOptions) (policy : DecayPolicy) (read : σ → String → Option String)
    (r : LintResult) : RunM σ FileStep := do
  if r.sourcePath.isEmpty then return {}
  let ctx : Candidates.Context := ⟨o.baseDir, o.engine, policy⟩
  let (candidates, reads) := Candidates.extract ctx (read (← get)) [r]
  let scope : Scope := ⟨o.engine, Path.relativeTo o.baseDir r.sourcePath, policy⟩
  let written ← if o.updating then onLedger (Ledger.write candidates scope) else pure ⟨0, 0⟩
  if Ledger.hasStorage (← get) then
    let step ← settle o candidates scope
    return { step with
      added := written.added, removed := written.removed + step.removed, reads }
  else return { added := written.added, removed := written.removed, reads }

/-! ## All files -/

/-- How far a run has come. -/
structure Progress where
  results : List LintResult
  tally : Tally := {}
  reads : List String := []

/-- Progress with what one file brings about. -/
def Progress.add (p : Progress) (o : RunOptions) (step : FileStep) : Progress :=
  let a := step.changes.apply o.baseDir p.results
  { results := a.results
    tally := {
      added := p.tally.added + step.added
      removed := p.tally.removed + step.removed
      demoted := p.tally.demoted + a.applied.demoted
      violations := p.tally.violations + a.applied.violations
      skipped := p.tally.skipped + a.applied.skipped }
    reads := p.reads ++ step.reads }

/-- The progress after the file at a place, as the results stand by then. -/
def advance (o : RunOptions) (policy : DecayPolicy) (read : σ → String → Option String)
    (p : Progress) (i : Nat) : RunM σ Progress := do
  match p.results[i]? with
  | none => return p
  | some r => return p.add o (← reconcile o policy read r)

/-! ## A whole run -/

/-- The format that is asked for, if any. -/
def formatOf? (o : RunOptions) : Except RunError (Option ReportFormat) :=
  match o.format with
  | none => .ok none
  | some name =>
    match ReportFormat.ofName? name with
    | none => .error (.unknownFormat name)
    | some f => .ok (some f)

/-- The format and the decay policy of a run, when nothing is wrong with the configuration or the
options. -/
def prepare (o : RunOptions) (l : σ) : Except RunError (Option ReportFormat × DecayPolicy) :=
  match Ledger.configProblem? l with
  | some problem => .error (.invalidConfig problem)
  | none => do
    let format ← formatOf? o
    if !o.overrides.isEmpty && !o.updating then .error .overrideWithoutUpdate
    else
      let policy ← (Ledger.policy l o.engine o.overrides).mapError RunError.ledger
      .ok (format, policy)

/-- The report of a run. -/
def report (o : RunOptions) (format : Option ReportFormat) (policy : DecayPolicy) (tally : Tally)
    (results : List LintResult) : String :=
  match format with
  | some f => f.render o.presentation.cwd results
  | none =>
    let summary : Summary := ⟨tally.added, tally.removed, policy.window⟩
    Console.render ⟨o.includeTodos, o.updating, some summary⟩ o.presentation results

/-- What a run answers that has only shortened the storage. -/
def compactOutcome (dropped : Nat) (results : List LintResult) : RunOutcome where
  output := "Removed " ++ toString dropped ++ " todos in .lint-todo storage file"
  errored := false
  tally := {}
  results := results
  reads := []

/-- A whole run: the results held against the ledger one by one, and the report. -/
def formatter (o : RunOptions) (read : σ → String → Option String) (results : List LintResult) :
    RunM σ RunOutcome := do
  let (format, policy) ← ofExcept (prepare o (← get))
  if o.compactOnly then
    return compactOutcome (← onLedger Ledger.compact) results
  else
    let p ← (List.range results.length).foldlM (advance o policy read) { results }
    let settled := LintResult.settleAll p.results
    return {
      output := report o format policy p.tally settled
      errored := LintResult.anyErrored settled
      tally := p.tally
      results := settled
      reads := p.reads }

end Run

end LintDebt
