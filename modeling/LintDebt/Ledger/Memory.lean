import LintDebt.Config
import LintDebt.Severity

/-!
# A ledger in memory

A ledger for trials: it keeps its todos in a list, and what it answers about configuration,
severities and expiry is set beforehand.

* `LintDebt.MemoryLedger`: the state of the ledger.
* `LintDebt.MemoryLedger.write`, `sortOut`, `exchange`, `compact`: the operations of a ledger.
-/

namespace LintDebt

/-- The calls that a ledger in memory keeps track of. -/
inductive LedgerCall where
  | write
  | exchange
  | compact
  deriving DecidableEq, Repr

/-- The state of a ledger in memory. -/
structure MemoryLedger where
  todos : List Todo := []
  /-- What is wrong with the configuration, if anything. -/
  problem : Option String := none
  basePolicy : DecayPolicy := {}
  /-- The codes of severities by rule. -/
  severityByRule : List (String × Int) := []
  /-- The rules whose todos count as expired. -/
  expiredRules : List String := []
  /-- Whether anything has been stored. -/
  storage : Bool := false
  /-- The calls made so far, in order. -/
  calls : List LedgerCall := []

namespace MemoryLedger

/-- Whether any call was made that may change the ledger. -/
def wasWritten (l : MemoryLedger) : Bool :=
  !l.calls.isEmpty

/-- The policy set beforehand, with a window that takes precedence over its general one; only the
window that results is checked. -/
def policy (l : MemoryLedger) (overrides : DecayWindow) : Except LedgerError DecayPolicy :=
  if overrides.isEmpty then .ok l.basePolicy
  else
    let window := overrides.orElse (l.basePolicy.window.getD {})
    match window.disorder? with
    | some (warn, error) => .error (.invalidDecay warn error)
    | none => .ok { l.basePolicy with window := some window }

/-- Adds the candidates that were not there, and removes the todos of the scope that no candidate
reproduces. -/
def write (candidates : Batch) (scope : Scope) : LedgerM MemoryLedger WriteSummary := do
  let l ← get
  let kept := l.todos.filter fun t =>
    !(scope.covers t && scope.owns t && !candidates.contains t.key)
  let keys := l.todos.map Todo.key
  let fresh := (candidates.filterEntries fun c => !keys.contains c.key).toList
  let next : MemoryLedger := { l with
    todos := kept ++ fresh.map ({ · with origin := none })
    storage := true
    calls := l.calls ++ [.write] }
  set next
  return ⟨fresh.length, l.todos.length - kept.length⟩

/-- Puts a todo of the scope where the candidates say it belongs. -/
def sortOne (l : MemoryLedger) (candidates : Batch) (scope : Scope) (batches : Batches) (t : Todo) :
    Batches :=
  match candidates.get? t.key with
  | some candidate =>
    let matched := { t with origin := candidate.origin }
    if l.expiredRules.contains t.ruleId then
      { batches with expired := batches.expired.insert matched }
    else { batches with stable := batches.stable.insert matched }
  | none =>
    if scope.owns t then { batches with remove := batches.remove.insert t } else batches

/-- Sorts the todos of the scope by what the candidates say about them. -/
def sortOut (candidates : Batch) (scope : Scope) : LedgerM MemoryLedger Batches := do
  let l ← get
  return (l.todos.filter scope.covers).foldl (l.sortOne candidates scope) {}

/-- Adds some todos and removes others. -/
def exchange (add remove : Batch) : LedgerM MemoryLedger Unit := do
  let l ← get
  let next : MemoryLedger := { l with
    todos := (l.todos.filter fun t => !remove.contains t.key) ++ add.toList
    storage := true
    calls := l.calls ++ [.exchange] }
  set next

/-- There is nothing to shorten. -/
def compact : LedgerM MemoryLedger Nat := do
  modify fun l => { l with calls := l.calls ++ [.compact] }
  return 0

/-- The code of the severity that a todo has: the one set for its rule, or that of a todo. -/
def severityCode (l : MemoryLedger) (t : Todo) : Int :=
  ((l.severityByRule.find? (·.1 == t.ruleId)).map (·.2)).getD Severity.todo.code

instance : Ledger MemoryLedger where
  configProblem? l := l.problem
  policy l _ overrides := l.policy overrides
  hasStorage l := l.storage
  write := write
  sortOut := sortOut
  exchange := exchange
  compact := compact
  severityCode := severityCode

end MemoryLedger

end LintDebt
