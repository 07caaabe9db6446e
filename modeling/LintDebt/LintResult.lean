import LintDebt.Severity
import LintDebt.Span

/-!
# What a linter reports

* `LintDebt.Diagnostic`: one issue.
* `LintDebt.LintResult`: everything reported for one file.
* `LintDebt.LintResult.listOfJson?`: the results that a JSON value denotes.
-/

namespace LintDebt

open Json (fieldNames required orDefault optional uint32? uint32 string? bool? list? always whenSome)

/-- One issue.  Line 0 means that it has no position. -/
structure Diagnostic where
  line : UInt32 := 0
  column : UInt32 := 0
  endLine : Option UInt32 := none
  endColumn : Option UInt32 := none
  rule : Option String := none
  severity : Severity
  text : String := ""
  deriving DecidableEq, Repr

/-- A notice that a rule is deprecated. -/
structure Deprecation where
  text : String
  reference : Option String := none
  deriving DecidableEq, Repr

/-- A notice that a rule has an invalid option. -/
structure InvalidOption where
  text : String
  deriving DecidableEq, Repr

/-- A place where a file could not be parsed. -/
structure ParseError where
  line : UInt32 := 0
  column : UInt32 := 0
  kind : String
  text : String
  deriving DecidableEq, Repr

/-- Everything reported for one file. -/
structure LintResult where
  source : Option String := none
  warnings : List Diagnostic := []
  deprecations : List Deprecation := []
  invalidOptions : List InvalidOption := []
  parseErrors : List ParseError := []
  errored : Bool := false
  ignored : Bool := false
  deriving DecidableEq, Repr

namespace Diagnostic

/-- The span of a diagnostic. -/
def span (d : Diagnostic) : Span :=
  Span.normalized d.line d.column d.endLine d.endColumn

/-- The rule of a diagnostic, empty when it has none. -/
def ruleId (d : Diagnostic) : String :=
  d.rule.getD ""

/-- Whether a diagnostic weighs as an error. -/
def isError (d : Diagnostic) : Bool :=
  d.severity == .error

/-- Whether a diagnostic is a todo. -/
def isTodo (d : Diagnostic) : Bool :=
  d.severity == .todo

/-- A diagnostic in JSON. -/
def toJson (d : Diagnostic) : Json :=
  .obj (always "line" (uint32 d.line) ++ always "column" (uint32 d.column) ++
    whenSome "endLine" uint32 d.endLine ++ whenSome "endColumn" uint32 d.endColumn ++
    whenSome "rule" Json.str d.rule ++ always "severity" d.severity.toJson ++
    always "text" (.str d.text))

/-- The diagnostic that a JSON value denotes. -/
def ofJson? (j : Json) : Option Diagnostic := do
  let [line, column, endLine, endColumn, rule, severity, text] ← j.fields? (fieldNames
    ["line", "column", "endLine", "endColumn", "rule", "severity", "text"]) | none
  some {
    line := ← orDefault 0 uint32? line
    column := ← orDefault 0 uint32? column
    endLine := ← optional uint32? endLine
    endColumn := ← optional uint32? endColumn
    rule := ← optional string? rule
    severity := ← required Severity.ofJson? severity
    text := ← orDefault "" string? text }

end Diagnostic

namespace Deprecation

/-- A deprecation in JSON. -/
def toJson (d : Deprecation) : Json :=
  .obj (always "text" (.str d.text) ++ whenSome "reference" Json.str d.reference)

/-- The deprecation that a JSON value denotes. -/
def ofJson? (j : Json) : Option Deprecation := do
  let [text, reference] ← j.fields? (fieldNames ["text", "reference"]) | none
  some ⟨← required string? text, ← optional string? reference⟩

end Deprecation

namespace InvalidOption

/-- An invalid option in JSON. -/
def toJson (o : InvalidOption) : Json :=
  .obj (always "text" (.str o.text))

/-- The invalid option that a JSON value denotes. -/
def ofJson? (j : Json) : Option InvalidOption := do
  let [text] ← j.fields? (fieldNames ["text"]) | none
  some ⟨← required string? text⟩

end InvalidOption

namespace ParseError

/-- A parse error in JSON. -/
def toJson (e : ParseError) : Json :=
  .obj (always "line" (uint32 e.line) ++ always "column" (uint32 e.column) ++
    always "stylelintType" (.str e.kind) ++ always "text" (.str e.text))

/-- The parse error that a JSON value denotes. -/
def ofJson? (j : Json) : Option ParseError := do
  let [line, column, kind, text] ← j.fields? (fieldNames
    ["line", "column", "stylelintType", "text"]) | none
  some {
    line := ← orDefault 0 uint32? line
    column := ← orDefault 0 uint32? column
    kind := ← required string? kind
    text := ← required string? text }

/-- A parse error as a diagnostic: an error whose rule is the kind of the parse error. -/
def toDiagnostic (e : ParseError) : Diagnostic where
  line := e.line
  column := e.column
  rule := some e.kind
  severity := .error
  text := e.text ++ " (" ++ e.kind ++ ")"

end ParseError

namespace LintResult

/-- The source path of a result, empty when it has none. -/
def sourcePath (r : LintResult) : String :=
  r.source.getD ""

/-- Whether any diagnostic of a result still weighs as an error. -/
def hasLiveErrors (r : LintResult) : Bool :=
  r.warnings.any Diagnostic.isError

/-- A result in JSON. -/
def toJson (r : LintResult) : Json :=
  .obj (whenSome "source" Json.str r.source ++
    always "warnings" (.arr (r.warnings.map Diagnostic.toJson)) ++
    always "deprecations" (.arr (r.deprecations.map Deprecation.toJson)) ++
    always "invalidOptionWarnings" (.arr (r.invalidOptions.map InvalidOption.toJson)) ++
    always "parseErrors" (.arr (r.parseErrors.map ParseError.toJson)) ++
    always "errored" (.bool r.errored) ++
    if r.ignored then always "ignored" (.bool true) else [])

/-- The result that a JSON value denotes. -/
def ofJson? (j : Json) : Option LintResult := do
  let [source, warnings, deprecations, invalidOptions, parseErrors, errored, ignored] ←
    j.fields? (fieldNames ["source", "warnings", "deprecations", "invalidOptionWarnings",
      "parseErrors", "errored", "ignored"]) | none
  some {
    source := ← optional string? source
    warnings := ← orDefault [] (list? Diagnostic.ofJson?) warnings
    deprecations := ← orDefault [] (list? Deprecation.ofJson?) deprecations
    invalidOptions := ← orDefault [] (list? InvalidOption.ofJson?) invalidOptions
    parseErrors := ← orDefault [] (list? ParseError.ofJson?) parseErrors
    errored := ← orDefault false bool? errored
    ignored := ← orDefault false bool? ignored }

/-- A list of results in JSON. -/
def listToJson (results : List LintResult) : Json :=
  .arr (results.map toJson)

/-- The list of results that a JSON value denotes. -/
def listOfJson? (j : Json) : Option (List LintResult) :=
  list? ofJson? j

end LintResult

end LintDebt
