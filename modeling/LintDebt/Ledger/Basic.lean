import LintDebt.Todo.Batch

/-!
# Ledgers

* `LintDebt.LedgerError`: the causes for which a ledger fails, and their wording.
* `LintDebt.Scope`: which todos a request is about.
* `LintDebt.LedgerM`: a step that may fail and still has changed the ledger.
* `LintDebt.Ledger`: what every ledger can do.
-/

namespace LintDebt

/-- What was to be done with a file when it failed. -/
inductive FileAction where
  | readConfig
  | readStorage
  | openStorage
  | writeStorage
  deriving DecidableEq, Repr

/-- The wording of an action. -/
def FileAction.text : FileAction → String
  | .readConfig => "read config"
  | .readStorage => "read todo storage"
  | .openStorage => "open todo storage"
  | .writeStorage => "write todo storage"

/-- The causes for which a ledger fails. -/
inductive LedgerError where
  /-- The configuration in a file cannot be understood. -/
  | unreadableConfig (path : String)
  /-- The warning of a window does not come before its error. -/
  | invalidDecay (warn error : UInt32)
  /-- A file could not be used. -/
  | file (action : FileAction) (path : String)
  /-- A line of the log cannot be understood. -/
  | corrupt (path : String) (line : Nat)
  deriving DecidableEq, Repr

/-- The wording of a ledger's error. -/
def LedgerError.message : LedgerError → String
  | .unreadableConfig path => "invalid todo configuration in '" ++ path ++ "'"
  | .invalidDecay warn error =>
    "The provided todo configuration contains invalid values. The \x60warn\x60 value (" ++
      toString warn.toNat ++ ") must be less than the \x60error\x60 value (" ++
      toString error.toNat ++ ")."
  | .file action path => action.text ++ " '" ++ path ++ "'"
  | .corrupt path line =>
    "corrupt todo storage '" ++ path ++ "' at line " ++ toString line

/-- Which todos a request is about. -/
structure Scope where
  /-- The engine whose todos may be removed. -/
  engine : String
  /-- The file that the request is about; empty stands for all files. -/
  filePath : String
  /-- How the candidates of the request decay. -/
  policy : DecayPolicy := {}

namespace Scope

/-- Whether a todo lies in the file that the request is about. -/
def covers (s : Scope) (t : Todo) : Bool :=
  s.filePath.isEmpty || t.filePath == s.filePath

/-- Whether a todo belongs to the engine that asks. -/
def owns (s : Scope) (t : Todo) : Bool :=
  t.engine == s.engine

end Scope

/-- How many todos a write has added and removed. -/
structure WriteSummary where
  added : Nat
  removed : Nat
  deriving DecidableEq, Repr

/-- A step on a ledger that may fail; what it has changed before stays changed. -/
abbrev LedgerM (σ : Type) := ExceptT LedgerError (StateM σ)

/-- A step that fails when a value is an error, and answers the value otherwise. -/
def LedgerM.ofExcept {σ α : Type} : Except LedgerError α → LedgerM σ α
  | .ok a => pure a
  | .error e => throw e

/-- What every ledger can do. -/
class Ledger (σ : Type) where
  /-- What is wrong with the sources of the configuration, if anything. -/
  configProblem? : σ → Option String
  /-- The decay policy of an engine, with a window that takes precedence over its general one. -/
  policy : σ → String → DecayWindow → Except LedgerError DecayPolicy
  /-- Whether anything has been stored. -/
  hasStorage : σ → Bool
  /-- Adds the candidates that are not live, and removes the live todos of the scope that no
  candidate reproduces. -/
  write : Batch → Scope → LedgerM σ WriteSummary
  /-- Sorts the live todos of the scope by what the candidates say about them. -/
  sortOut : Batch → Scope → LedgerM σ Batches
  /-- Adds some todos and removes others. -/
  exchange : Batch → Batch → LedgerM σ Unit
  /-- Shortens the storage to what is live; answers how much was dropped. -/
  compact : LedgerM σ Nat
  /-- The code of the severity that a todo has. -/
  severityCode : σ → Todo → Int

end LintDebt
