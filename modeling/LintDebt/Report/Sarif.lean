import LintDebt.Json.Printer
import LintDebt.LintResult
import LintDebt.Path

/-!
# Reports in SARIF

A static analysis report lists the rules that were broken, and for each finding its rule, level,
message and place.

* `LintDebt.Sarif.Level`: how much a finding weighs.
* `LintDebt.Sarif.Rule`, `Finding`, `Report`: the parts of a report.
* `LintDebt.Sarif.Report.of`: the report of some results.
* `LintDebt.Sarif.Report.toJson`: a report in JSON.
-/

namespace LintDebt.Sarif

open Json (always whenSome uint32)

/-! ## Parts -/

/-- How much a finding weighs. -/
inductive Level where
  | error
  | warning
  | note
  | none
  deriving DecidableEq, Repr

/-- The name of a level. -/
def Level.name : Level → String
  | .error => "error"
  | .warning => "warning"
  | .note => "note"
  | .none => "none"

/-- The level of a severity. -/
def Level.ofSeverity : Severity → Level
  | .error => .error
  | .warning => .warning
  | .todo => .note
  | .off => .none

/-- A rule that was broken. -/
structure Rule where
  id : String
  /-- The level of its first finding. -/
  level : Level
  deriving DecidableEq, Repr

/-- The stretch of a file that a finding is about. -/
structure Region where
  startLine : UInt32
  startColumn : UInt32
  endLine : Option UInt32
  endColumn : Option UInt32
  deriving DecidableEq, Repr

/-- A rule broken at a place. -/
structure Finding where
  ruleId : String
  level : Level
  text : String
  /-- The path of the file. -/
  uri : String
  region : Option Region
  /-- What tells the finding from others in later reports. -/
  fingerprint : String
  deriving DecidableEq, Repr

/-- The rules and findings of a run of the linter. -/
structure Report where
  /-- The rules, in the order of their names. -/
  rules : List Rule
  findings : List Finding
  deriving DecidableEq, Repr

/-! ## From results to reports -/

/-- Puts a rule among rules in the order of their names, unless one of its name is there. -/
def insertRule (rule : Rule) : List Rule → List Rule
  | [] => [rule]
  | r :: rest =>
    if rule.id < r.id then rule :: r :: rest
    else if rule.id = r.id then r :: rest
    else r :: insertRule rule rest

/-- The rules of findings. -/
def rulesOf (findings : List Finding) : List Rule :=
  findings.foldl (fun rules f => insertRule ⟨f.ruleId, f.level⟩ rules) []

/-- The region of a diagnostic that has a position; columns count from 1. -/
def regionOf (d : Diagnostic) : Option Region :=
  if d.line = 0 then none
  else some ⟨d.line, max d.column 1, d.endLine, d.endColumn⟩

/-- The finding of a diagnostic in a file. -/
def Finding.of (uri : String) (d : Diagnostic) : Finding where
  ruleId := d.ruleId
  level := Level.ofSeverity d.severity
  text := d.text
  uri := uri
  region := regionOf d
  fingerprint := d.ruleId ++ ":" ++ uri ++ ":" ++ toString d.line.toNat

/-- The findings of a result, whose path is seen from a directory. -/
def findingsOf (cwd : String) (r : LintResult) : List Finding :=
  r.warnings.map (Finding.of (Path.relativeTo cwd r.sourcePath))

/-- The report of some results. -/
def Report.of (cwd : String) (results : List LintResult) : Report :=
  let findings := results.flatMap (findingsOf cwd)
  ⟨rulesOf findings, findings⟩

/-! ## In JSON -/

/-- A rule in JSON. -/
def Rule.toJson (r : Rule) : Json :=
  .obj (always "id" (.str r.id) ++
    always "defaultConfiguration" (.obj (always "level" (.str r.level.name))))

/-- A region in JSON. -/
def Region.toJson (r : Region) : Json :=
  .obj (always "startLine" (uint32 r.startLine) ++ always "startColumn" (uint32 r.startColumn) ++
    whenSome "endLine" uint32 r.endLine ++ whenSome "endColumn" uint32 r.endColumn)

/-- The place of a finding in JSON. -/
def Finding.location (f : Finding) : Json :=
  let artifact := always "uri" (.str f.uri) ++ always "uriBaseId" (.str "%SRCROOT%")
  .obj (always "physicalLocation" (.obj (always "artifactLocation" (.obj artifact) ++
    whenSome "region" Region.toJson f.region)))

/-- A finding in JSON. -/
def Finding.toJson (f : Finding) : Json :=
  .obj (always "ruleId" (.str f.ruleId) ++ always "level" (.str f.level.name) ++
    always "message" (.obj (always "text" (.str f.text))) ++
    always "locations" (.arr [f.location]) ++
    always "partialFingerprints" (.obj (always "primaryLocationLineHash" (.str f.fingerprint))))

/-- The tool of a report in JSON. -/
def Report.driver (r : Report) : Json :=
  .obj (always "name" (.str "stylelint") ++
    always "informationUri" (.str "https://stylelint.io") ++
    if r.rules.isEmpty then [] else always "rules" (.arr (r.rules.map Rule.toJson)))

/-- Where the format of a report is defined. -/
def schema : String :=
  "https://raw.githubusercontent.com/oasis-tcs/sarif-spec/master/Schemata/sarif-schema-2.1.0.json"

/-- A report in JSON. -/
def Report.toJson (r : Report) : Json :=
  let run := always "tool" (.obj (always "driver" r.driver)) ++
    always "results" (.arr (r.findings.map Finding.toJson))
  .obj (always "$schema" (.str schema) ++ always "version" (.str "2.1.0") ++
    always "runs" (.arr [.obj run]))

/-- The report of some results as text. -/
def render (cwd : String) (results : List LintResult) : String :=
  (Report.of cwd results).toJson.pretty

end LintDebt.Sarif
