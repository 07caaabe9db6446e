import LintDebt.Json.Parser
import LintDebt.Json.Printer
import LintDebt.Text.Blank
import LintDebt.Text.Lines
import LintDebt.Todo.Batch

/-!
# The log of todos

The ledger is a log: each line adds a todo or removes one.  The live todos are what is left when
the lines are applied in order; a todo that is added again after its removal comes last.

* `LintDebt.LogEntry`: a line of the log.
* `LintDebt.Batch.apply`: the live todos after one more entry.
* `LintDebt.LogEntry.live`: the live todos of a log.
* `LintDebt.LogEntry.encode`, `decode`: the log as text.
-/

namespace LintDebt

/-- What a line of the log does with its todo. -/
inductive LogOp where
  | add
  | remove
  deriving DecidableEq, Repr

namespace LogOp

/-- The name of an operation. -/
def name : LogOp → String
  | .add => "add"
  | .remove => "remove"

/-- The operation of a name. -/
def ofName? : String → Option LogOp
  | "add" => some .add
  | "remove" => some .remove
  | _ => none

@[simp] theorem ofName?_name (op : LogOp) : ofName? op.name = some op := by
  cases op <;> rfl

end LogOp

/-- A line of the log. -/
structure LogEntry where
  op : LogOp
  todo : Todo
  deriving DecidableEq, Repr

/-- The live todos after one more entry.  A todo that is live already stays as it is. -/
def Batch.apply (live : Batch) (entry : LogEntry) : Batch :=
  match entry.op with
  | .add => live.insert entry.todo.stored
  | .remove => live.erase entry.todo.key

/-- The live todos after several entries. -/
def Batch.applyAll (live : Batch) (entries : List LogEntry) : Batch :=
  entries.foldl Batch.apply live

namespace LogEntry

/-- The live todos of a log. -/
def live (entries : List LogEntry) : Batch :=
  Batch.empty.applyAll entries

/-- An entry in JSON: the members of its todo behind its operation. -/
def toJson (e : LogEntry) : Json :=
  .obj (("op", .str e.op.name) :: e.todo.members)

/-- The entry that a JSON object denotes. -/
def ofJson? (j : Json) : Option LogEntry :=
  match j with
  | .obj members => do
    let op ← (← Json.Field.lookup? ⟨"op", none⟩ members).bind Json.unit?
    some ⟨← LogOp.ofName? op, ← Todo.ofJson? j⟩
  | _ => none

/-- The entry that a line denotes. -/
def parse? (line : String) : Option LogEntry :=
  (Json.parseStrict? line).bind ofJson?

/-- A log as text, one line for each entry. -/
def encode (entries : List LogEntry) : String :=
  String.join (entries.map fun e => e.toJson.compact ++ "\n")

/-- The entries of numbered lines, or the number of the first line that denotes none; blank lines
do not count. -/
def decodeLines : Nat → List String → Except Nat (List LogEntry)
  | _, [] => .ok []
  | number, line :: rest =>
    if Text.allBlank line then decodeLines (number + 1) rest
    else
      match parse? line with
      | none => .error number
      | some entry => (decodeLines (number + 1) rest).map (entry :: ·)

/-- The entries of a log, or the number, counted from 1, of the first line that denotes none. -/
def decode (text : String) : Except Nat (List LogEntry) :=
  decodeLines 1 (Text.lines text)

end LogEntry

end LintDebt
