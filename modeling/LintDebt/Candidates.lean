import LintDebt.LintResult
import LintDebt.Path
import LintDebt.Todo.Batch

/-!
# Candidates

Every diagnostic that weighs as an error is a candidate for a todo.

* `LintDebt.Candidates.Context`: what a candidate takes from its surroundings.
* `LintDebt.Candidates.ofResult`: the candidates of one result, and the source files asked for.
* `LintDebt.Candidates.extract`: the candidates of several results.
-/

namespace LintDebt.Candidates

/-- What a candidate takes from its surroundings. -/
structure Context where
  /-- The directory that file paths are seen from. -/
  baseDir : String
  /-- The engine of the candidates. -/
  engine : String
  /-- How the candidates decay. -/
  policy : DecayPolicy := {}

/-- The candidate of a diagnostic at a place in its result. -/
def ofDiagnostic (ctx : Context) (filePath : String) (contents : Option String) (origin : Nat)
    (d : Diagnostic) : Todo where
  engine := ctx.engine
  filePath := filePath
  ruleId := d.ruleId
  span := d.span
  snippet := match contents with
    | some text => d.span.sourceLines text
    | none => ""
  origin := some origin
  decay := ctx.policy.windowFor d.ruleId

/-- The candidates of one result, with the source paths asked for: the source is asked for once
when there is an error in the result, and not at all otherwise. -/
def ofResult (ctx : Context) (read : String → Option String) (r : LintResult) :
    List Todo × List String :=
  let errors := r.warnings.zipIdx.filter fun (d, _) => d.isError
  if errors.isEmpty then ([], [])
  else
    let contents := read r.sourcePath
    let filePath := Path.relativeTo ctx.baseDir r.sourcePath
    (errors.map fun (d, i) => ofDiagnostic ctx filePath contents i d, [r.sourcePath])

/-- The candidates of several results as one batch, with the source paths asked for. -/
def extract (ctx : Context) (read : String → Option String) (results : List LintResult) :
    Batch × List String :=
  let parts := results.map (ofResult ctx read)
  (Batch.ofList (parts.flatMap (·.1)), parts.flatMap (·.2))

end LintDebt.Candidates
