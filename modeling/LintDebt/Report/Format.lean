import LintDebt.Report.Console
import LintDebt.Report.Sarif

/-!
# Formats for other programs

Besides the report for the console there are formats that other programs read.  None of them shows
todos.

* `LintDebt.ReportFormat`: the formats and their names.
* `LintDebt.ReportFormat.render`: results in a format.
-/

namespace LintDebt

/-- A format that other programs read. -/
inductive ReportFormat where
  | sarif
  | json
  | compact
  | unix
  | github
  deriving DecidableEq, Repr

namespace ReportFormat

/-- The name of a format. -/
def name : ReportFormat → String
  | .sarif => "sarif"
  | .json => "json"
  | .compact => "compact"
  | .unix => "unix"
  | .github => "github"

/-- The format of a name. -/
def ofName? : String → Option ReportFormat
  | "sarif" => some .sarif
  | "json" => some .json
  | "compact" => some .compact
  | "unix" => some .unix
  | "github" => some .github
  | _ => none

@[simp] theorem ofName?_name (f : ReportFormat) : ofName? f.name = some f := by
  cases f <;> rfl

/-- A result without its todos. -/
def withoutTodos (r : LintResult) : LintResult :=
  { r with warnings := r.warnings.filter fun d => !d.isTodo }

/-- The lines of a report, each diagnostic with its result. -/
def lines (line : LintResult → Diagnostic → String) (results : List LintResult) : List String :=
  results.flatMap fun r => r.warnings.map (line r)

/-- Lines, each closed by a line feed. -/
def closeLines (lines : List String) : String :=
  String.join (lines.map (· ++ "\n"))

/-! ## Lines of diagnostics -/

/-- A diagnostic with its position and severity spelled out. -/
def compactLine (r : LintResult) (d : Diagnostic) : String :=
  r.sourcePath ++ ": line " ++ toString d.line.toNat ++ ", col " ++ toString d.column.toNat ++
    ", " ++ d.severity.name ++ " - " ++ d.text

/-- A diagnostic behind its position. -/
def unixLine (r : LintResult) (d : Diagnostic) : String :=
  r.sourcePath ++ ":" ++ toString d.line.toNat ++ ":" ++ toString d.column.toNat ++ ": " ++
    d.text ++ " [" ++ d.severity.name ++ "]"

/-- The kind of annotation for a severity. -/
def annotation : Severity → String
  | .error => "error"
  | .warning => "warning"
  | .todo | .off => "notice"

/-- A property of an annotation that is there only when it has a value. -/
def property (name : String) (value : Option UInt32) : String :=
  match value with
  | some n => "," ++ name ++ "=" ++ toString n.toNat
  | none => ""

/-- A diagnostic as an annotation of a file. -/
def githubLine (cwd : String) (r : LintResult) (d : Diagnostic) : String :=
  "::" ++ annotation d.severity ++ " file=" ++ Path.relativeTo cwd r.sourcePath ++
    ",line=" ++ toString d.line.toNat ++ ",col=" ++ toString d.column.toNat ++
    property "endLine" d.endLine ++ property "endColumn" d.endColumn ++
    ",title=Stylelint problem::" ++ d.text ++ " [" ++ d.ruleId ++ "]"

/-- What follows the diagnostics when there are any: their number. -/
def total (count : Nat) : String :=
  if count = 0 then "" else "\n" ++ counted count "problem" ++ "\n"

/-! ## Reports -/

/-- Results in a format; paths are seen from a directory where the format asks for it. -/
def render (f : ReportFormat) (cwd : String) (results : List LintResult) : String :=
  let results := results.map withoutTodos
  match f with
  | .sarif => Sarif.render cwd results
  | .json => (LintResult.listToJson results).compact
  | .compact => closeLines (lines compactLine results)
  | .unix =>
    let lines := lines unixLine results
    closeLines lines ++ total lines.length
  | .github => closeLines (lines (githubLine cwd) results)

end ReportFormat

end LintDebt
