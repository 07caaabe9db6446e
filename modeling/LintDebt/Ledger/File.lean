import LintDebt.Config
import LintDebt.Severity
import LintDebt.Log

/-!
# The ledger in a file

The ledger keeps its log in a file beside its configuration.  The log is read once; what is
appended later is applied to the live todos that were read.

* `LintDebt.FileLedger`: the state of the ledger.
* `LintDebt.FileLedger.liveTodos`: the live todos, read on first use.
* `LintDebt.FileLedger.date`: a todo with its dates.
* `LintDebt.FileLedger.write`, `sortOut`, `exchange`, `compact`: the operations of a ledger.
-/

namespace LintDebt

/-- The state of a ledger in a file. -/
structure FileLedger where
  files : FileTree
  /-- The directory that holds the log and the configuration. -/
  baseDir : String
  today : Date
  /-- The live todos, once the log has been read. -/
  cache : Option Batch := none

namespace FileLedger

/-- The name of the file that holds the log. -/
def storageFile : String := ".lint-todo"

/-- The path of the file that holds the log. -/
def storagePath (l : FileLedger) : String :=
  Path.join l.baseDir storageFile

/-- The ledger in a directory, with nothing read yet. -/
def openIn (files : FileTree) (baseDir : String) (today : Date) : FileLedger :=
  { files, baseDir, today }

/-! ## The log -/

/-- The entries of the log; a missing file holds none. -/
def readEntries (l : FileLedger) : Except LedgerError (List LogEntry) :=
  if !l.files.isFile l.storagePath then .ok []
  else
    match l.files.readText? l.storagePath with
    | none => .error (.file .readStorage l.storagePath)
    | some text =>
      match LogEntry.decode text with
      | .ok entries => .ok entries
      | .error line => .error (.corrupt l.storagePath line)

/-- The live todos: those read before, or those of the log. -/
def currentLive (l : FileLedger) : Except LedgerError Batch :=
  match l.cache with
  | some live => .ok live
  | none => l.readEntries.map LogEntry.live

/-- The live todos, which are kept for later. -/
def liveTodos : LedgerM FileLedger Batch := do
  let live ← LedgerM.ofExcept (← get).currentLive
  modify fun l => { l with cache := some live }
  return live

/-- Appends entries to the log, and applies them to the live todos if those have been read. -/
def append (entries : List LogEntry) : LedgerM FileLedger Unit := do
  if entries.isEmpty then return
  let l ← get
  match l.files.append? l.storagePath (LogEntry.encode entries) with
  | none => throw (.file .openStorage l.storagePath)
  | some files =>
    let next : FileLedger := { l with files, cache := l.cache.map (·.applyAll entries) }
    set next

/-! ## Dates -/

/-- The date some days from today, if the days are set and the date can be represented. -/
def after (l : FileLedger) (days : Option UInt32) : Option Date :=
  days.bind fun n => l.today.addDays? n.toNat

/-- A todo with its dates: one that was created before keeps its dates, any other is created today
and decays as its own window says, or else as the policy does. -/
def date (l : FileLedger) (policy : Option DecayPolicy) (t : Todo) : Todo :=
  if t.createdDate.isSome then t
  else
    let window := (t.decay <|> policy.bind (·.windowFor t.ruleId)).getD {}
    { t with
      createdDate := some l.today
      warnDate := l.after window.warn
      errorDate := l.after window.error }

/-- Whether a date has come. -/
def hasCome (l : FileLedger) (date : Option Date) : Bool :=
  match date with
  | some d => d.le l.today
  | none => false

/-- Whether the error date of a todo has come. -/
def isExpired (l : FileLedger) (t : Todo) : Bool :=
  l.hasCome t.errorDate

/-- The severity that a todo has today. -/
def severity (l : FileLedger) (t : Todo) : Severity :=
  if l.isExpired t then .error
  else if l.hasCome t.warnDate then .warning
  else .todo

/-! ## Operations -/

/-- Adds the candidates that are not live, with their dates, and removes the live todos of the
scope that no candidate reproduces. -/
def write (candidates : Batch) (scope : Scope) : LedgerM FileLedger WriteSummary := do
  let live ← liveTodos
  let l ← get
  let fresh := (candidates.filterEntries fun c => !live.contains c.key).toList
  let stale := (live.filterEntries fun k =>
    scope.covers k.todo && scope.owns k.todo && !candidates.contains k.key).toList
  append (fresh.map (fun t => ⟨.add, l.date (some scope.policy) t⟩) ++ stale.map (⟨.remove, ·⟩))
  return ⟨fresh.length, stale.length⟩

/-- Puts a live todo of the scope where the candidates say it belongs. -/
def sortOne (l : FileLedger) (candidates : Batch) (scope : Scope) (batches : Batches) (k : Keyed) :
    Batches :=
  match candidates.get? k.key with
  | some candidate =>
    let matched := { k.todo with origin := candidate.origin, decay := candidate.decay }
    if l.isExpired matched then { batches with expired := batches.expired.insert matched }
    else { batches with stable := batches.stable.insert matched }
  | none =>
    if scope.owns k.todo then { batches with remove := batches.remove.insertKeyed k } else batches

/-- Sorts the live todos of the scope by what the candidates say about them. -/
def sortOut (candidates : Batch) (scope : Scope) : LedgerM FileLedger Batches := do
  let live ← liveTodos
  let l ← get
  return (live.filter scope.covers).entries.foldl (l.sortOne candidates scope) {}

/-- Adds some todos, with their dates, and removes others. -/
def exchange (add remove : Batch) : LedgerM FileLedger Unit := do
  let l ← get
  append (add.toList.map (fun t => ⟨.add, l.date none t⟩) ++ remove.toList.map (⟨.remove, ·⟩))

/-- Writes the log anew so that it adds what is live and nothing else; answers how many entries were
dropped. -/
def compact : LedgerM FileLedger Nat := do
  let l ← get
  let entries ← LedgerM.ofExcept l.readEntries
  if entries.isEmpty then return 0
  let live := LogEntry.live entries
  let kept := live.toList.map (⟨.add, ·⟩)
  match l.files.write? l.storagePath (LogEntry.encode kept) with
  | none => throw (.file .writeStorage l.storagePath)
  | some files =>
    let next : FileLedger := { l with files, cache := some (LogEntry.live kept) }
    set next
    return entries.length - live.size

instance : Ledger FileLedger where
  configProblem? l := Config.conflict? l.files l.baseDir
  policy l := Config.load l.files l.baseDir
  hasStorage l := l.files.isFile l.storagePath
  write := write
  sortOut := sortOut
  exchange := exchange
  compact := compact
  severityCode l t := (l.severity t).code

end FileLedger

end LintDebt
