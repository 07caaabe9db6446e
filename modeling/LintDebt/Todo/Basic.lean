import LintDebt.Date.Text
import LintDebt.Decay
import LintDebt.Digest.Sha256
import LintDebt.Span

/-!
# Todos

A todo is an error that is accepted for now.  Its identity is the engine, the file, the rule and
the span; the snippet, the dates and the two fields that are never stored do not belong to it.

* `LintDebt.Todo`: an accepted error, or a candidate for one.
* `LintDebt.Todo.identityBytes`: the identity of a todo, spelled out.
* `LintDebt.Todo.key`: the fingerprint of the identity.
* `LintDebt.Todo.stored`: a todo as the ledger keeps it.
-/

namespace LintDebt

open Json (fieldNames required orDefault optional string? always whenSome)

/-- An accepted error, or a candidate for one. -/
structure Todo where
  /-- The linter that reported the error. -/
  engine : String
  /-- The file, seen from the directory of the ledger. -/
  filePath : String
  ruleId : String
  span : Span
  /-- The source lines that the span touches. -/
  snippet : String := ""
  createdDate : Option Date := none
  /-- From this date on the todo weighs as a warning. -/
  warnDate : Option Date := none
  /-- From this date on the todo weighs as an error. -/
  errorDate : Option Date := none
  /-- The place of the diagnostic in its result, for a candidate; never stored. -/
  origin : Option Nat := none
  /-- The window found for a candidate's rule; never stored. -/
  decay : Option DecayWindow := none
  deriving DecidableEq, Repr

namespace Todo

/-! ## Identity -/

/-- A text closed by a zero byte. -/
def closed (s : String) : List UInt8 :=
  s.toUTF8.toList ++ [0]

/-- The identity of a todo, spelled out: three texts and four numbers, each closed by a zero
byte. -/
def identityBytes (t : Todo) : List UInt8 :=
  closed t.engine ++ closed t.filePath ++ closed t.ruleId ++
    ([t.span.start.line, t.span.start.column, t.span.stop.line, t.span.stop.column].flatMap
      fun n => closed (toString n.toNat))

/-- The fingerprint of a todo: the first eight bytes of the digest of its identity. -/
def key (t : Todo) : String :=
  Sha256.hex ((Sha256.digest t.identityBytes).take 8)

/-- A todo as the ledger keeps it. -/
def stored (t : Todo) : Todo :=
  { t with origin := none, decay := none }

@[simp] theorem key_stored (t : Todo) : t.stored.key = t.key := rfl

@[simp] theorem stored_stored (t : Todo) : t.stored.stored = t.stored := rfl

/-! ## Text -/

/-- A date in JSON. -/
def dateToJson (d : Date) : Json :=
  .str d.render

/-- The date that a JSON value denotes. -/
def dateOfJson? (j : Json) : Option Date :=
  (string? j).bind Date.parse?

/-- The members of a todo in JSON. -/
def members (t : Todo) : List (String × Json) :=
  always "engine" (.str t.engine) ++ always "filePath" (.str t.filePath) ++
    always "ruleId" (.str t.ruleId) ++ always "range" t.span.toJson ++
    always "source" (.str t.snippet) ++ whenSome "createdDate" dateToJson t.createdDate ++
    whenSome "warnDate" dateToJson t.warnDate ++ whenSome "errorDate" dateToJson t.errorDate

/-- A todo in JSON, without the fields that are never stored. -/
def toJson (t : Todo) : Json :=
  .obj t.members

/-- The names of a todo's fields. -/
def fieldNames : List Json.Field :=
  Json.fieldNames ["engine", "filePath", "ruleId", "range", "source", "createdDate", "warnDate",
    "errorDate"]

/-- The todo that a JSON value denotes. -/
def ofJson? (j : Json) : Option Todo := do
  let [engine, filePath, ruleId, span, snippet, createdDate, warnDate, errorDate] ←
    j.fields? fieldNames | none
  some {
    engine := ← required string? engine
    filePath := ← required string? filePath
    ruleId := ← required string? ruleId
    span := ← required Span.ofJson? span
    snippet := ← orDefault "" string? snippet
    createdDate := ← optional dateOfJson? createdDate
    warnDate := ← optional dateOfJson? warnDate
    errorDate := ← optional dateOfJson? errorDate }

end Todo

end LintDebt
