import LintDebt.Proofs.Log.LiveSet
import LintDebt.Proofs.Run.Simulation

/-!
# The ledger in a file, with its live todos in a map

A ledger in a file may keep the live todos that it has read in a map from their keys, and ask this for what it needs.
Such a ledger answers to every request, and to every run, what a ledger with a batch of live todos answers, and it
leaves the same files; so all that is said of the one holds of the other.

* `LintDebt.MapLedger`: the ledger, with the operations of a ledger.
* `LintDebt.MapLedger.Keeps`: two ledgers are about the same files, and the map of the one represents the batch of the
  other.
* `LintDebt.MapLedger.alike_liveRecords`, `alike_write`, `alike_sortOut`, `alike_exchange`, `alike_compact`: the
  operations go alike.
* `LintDebt.MapLedger.alike_formatter`: whole runs go alike.
-/

namespace LintDebt

/-- The state of a ledger in a file that keeps its live todos in a map. -/
structure MapLedger where
  files : FileTree
  /-- The directory that holds the log and the configuration. -/
  baseDir : String
  today : Date
  /-- The live todos, once the log has been read. -/
  live : Option LiveSet := none

namespace MapLedger

/-! ## Operations -/

/-- The ledger on the same files that has read nothing yet. -/
def unread (m : MapLedger) : FileLedger :=
  .openIn m.files m.baseDir m.today

/-- The live todos: those read before, or those of the log. -/
def currentLive (m : MapLedger) : Except LedgerError LiveSet :=
  match m.live with
  | some live => .ok live
  | none => m.unread.readEntries.map LiveSet.fold

/-- The live todos, which are kept for later. -/
def liveTodos : LedgerM MapLedger LiveSet := do
  let live ← LedgerM.ofExcept (← get).currentLive
  modify fun m => { m with live := some live }
  return live

/-- The live todos in order. -/
def liveRecords : LedgerM MapLedger (List Todo) := do
  return (← liveTodos).records

/-- Appends entries to the log, and applies them to the live todos if those have been read. -/
def append (entries : List LogEntry) : LedgerM MapLedger Unit := do
  if entries.isEmpty then return
  let m ← get
  match m.files.append? m.unread.storagePath (LogEntry.encode entries) with
  | none => throw (.file .openStorage m.unread.storagePath)
  | some files =>
    let next : MapLedger := { m with files, live := m.live.map (·.applyAll entries) }
    set next

/-- Adds the candidates that are not live, with their dates, and removes the live todos of the
scope that no candidate reproduces. -/
def write (candidates : Batch) (scope : Scope) : LedgerM MapLedger WriteSummary := do
  let live ← liveTodos
  let m ← get
  let fresh := candidates.toList.filter fun c => !live.containsKey c.key
  let stale := live.recordsWhere fun t => scope.covers t && scope.owns t && !candidates.contains t.key
  append (fresh.map (fun t => ⟨.add, m.unread.date (some scope.policy) t⟩) ++ stale.map (⟨.remove, ·⟩))
  return ⟨fresh.length, stale.length⟩

/-- Sorts the live todos of the scope by what the candidates say about them. -/
def sortOut (candidates : Batch) (scope : Scope) : LedgerM MapLedger Batches := do
  let live ← liveTodos
  let m ← get
  return (live.recordsWhere scope.covers).foldl (fun b t => m.unread.sortOne candidates scope b (.of t)) {}

/-- Adds some todos, with their dates, and removes others. -/
def exchange (add remove : Batch) : LedgerM MapLedger Unit := do
  let m ← get
  append (add.toList.map (fun t => ⟨.add, m.unread.date none t⟩) ++ remove.toList.map (⟨.remove, ·⟩))

/-- Writes the log anew so that it adds what is live and nothing else; answers how many entries were
dropped. -/
def compact : LedgerM MapLedger Nat := do
  let m ← get
  let entries ← LedgerM.ofExcept m.unread.readEntries
  if entries.isEmpty then return 0
  let live := LiveSet.fold entries
  let kept := live.records.map (⟨.add, ·⟩)
  match m.files.write? m.unread.storagePath (LogEntry.encode kept) with
  | none => throw (.file .writeStorage m.unread.storagePath)
  | some files =>
    let next : MapLedger := { m with files, live := some (LiveSet.fold kept) }
    set next
    return entries.length - live.len

instance : Ledger MapLedger where
  configProblem? m := Config.conflict? m.files m.baseDir
  policy m := Config.load m.files m.baseDir
  hasStorage m := m.files.isFile m.unread.storagePath
  write := write
  sortOut := sortOut
  exchange := exchange
  compact := compact
  severityCode m t := (m.unread.severity t).code

/-! ## Map and batch -/

/-- A ledger with a batch of live todos and one with a map of them are about the same files on the same day, and when
they have read their live todos, the map represents the batch. -/
def Keeps (l : FileLedger) (m : MapLedger) : Prop :=
  ∃ live, m = { files := l.files, baseDir := l.baseDir, today := l.today, live } ∧
    Option.Rel (fun b x => LiveSet.Represents x b) l.cache live

variable {l : FileLedger} {m : MapLedger}

/-- Opened in the same directory, both have read nothing. -/
theorem keeps_openIn (files : FileTree) (baseDir : String) (today : Date) :
    Keeps (.openIn files baseDir today) { files, baseDir, today } :=
  ⟨none, rfl, .none⟩

/-- Either both have live todos, of which the map represents the batch, or the log of both cannot be read. -/
theorem Keeps.currentLive (h : Keeps l m) :
    (∃ b x, l.currentLive = .ok b ∧ m.currentLive = .ok x ∧ x.Represents b) ∨
      ∃ e, l.currentLive = .error e ∧ m.currentLive = .error e := by
  obtain ⟨live, rfl, hlive⟩ := h
  unfold FileLedger.currentLive MapLedger.currentLive
  revert hlive
  generalize l.cache = cache
  rintro (hrep | -)
  · exact .inl ⟨_, _, rfl, rfl, hrep⟩
  · show (∃ b x, l.readEntries.map LogEntry.live = .ok b ∧ l.readEntries.map LiveSet.fold = .ok x ∧ _) ∨
      ∃ e, l.readEntries.map LogEntry.live = .error e ∧ l.readEntries.map LiveSet.fold = .error e
    cases l.readEntries with
    | error e => exact .inr ⟨e, rfl, rfl⟩
    | ok entries => exact .inl ⟨_, _, rfl, rfl, LiveSet.represents_fold entries⟩

/-- The ledgers that have read their live todos keep the same, when the map represents the batch. -/
theorem Keeps.remembering (h : Keeps l m) {b : Batch} {x : LiveSet} (hrep : x.Represents b) :
    Keeps (l.remembering b) { m with live := some x } := by
  obtain ⟨live, rfl, -⟩ := h
  exact ⟨some x, rfl, .some hrep⟩

/-- Steps that ask for the live todos first go alike when they do so for a batch and a map of it. -/
theorem alike_liveTodos_bind {α : Type} {f : Batch → LedgerM FileLedger α} {g : LiveSet → LedgerM MapLedger α}
    (h : Keeps l m)
    (hf : ∀ b x l' m', x.Represents b → Keeps l' m' → Alike Keeps (f b) (g x) l' m') :
    Alike Keeps (FileLedger.liveTodos >>= f) (liveTodos >>= g) l m := by
  rcases h.currentLive with ⟨b, x, hb, hx, hrep⟩ | ⟨e, hb, hx⟩
  · have hread : Yields liveTodos m x { m with live := some x } := by
      unfold liveTodos
      rw [yields_get_bind, hx]
      rfl
    exact alike_bind_of_yields (FileLedger.yields_liveTodos.mpr ⟨hb, rfl⟩) hread
      (hf b x _ _ hrep (h.remembering hrep))
  · have hleft : FileLedger.liveTodos.run.run l = (.error e, l) := by
      show (LedgerM.ofExcept l.currentLive >>= _).run.run l = _
      rw [hb]
      rfl
    have hright : liveTodos.run.run m = (.error e, m) := by
      show (LedgerM.ofExcept m.currentLive >>= _).run.run m = _
      rw [hx]
      rfl
    unfold Alike
    rw [run_bind_eq, run_bind_eq, hleft, hright]
    exact ⟨rfl, h⟩

/-- The live todos are answered in the same order. -/
theorem alike_liveRecords (h : Keeps l m) :
    Alike Keeps (FileLedger.liveTodos >>= fun live => pure live.toList) liveRecords l m := by
  refine alike_liveTodos_bind h fun b x l' m' hrep h' => ?_
  rw [hrep.records]
  exact alike_pure h' _

/-- Appending goes alike. -/
theorem alike_append (h : Keeps l m) (entries : List LogEntry) :
    Alike Keeps (FileLedger.append entries) (append entries) l m := by
  unfold FileLedger.append append
  split
  · exact alike_pure h _
  · refine alike_get_bind ?_
    obtain ⟨live, rfl, hlive⟩ := h
    show Alike Keeps (match l.files.append? l.storagePath (LogEntry.encode entries) with
      | none => _
      | some files => _) (match l.files.append? l.storagePath (LogEntry.encode entries) with
      | none => _
      | some files => _) l _
    cases l.files.append? l.storagePath (LogEntry.encode entries) with
    | none => exact alike_throw ⟨live, rfl, hlive⟩ _
    | some files =>
      refine alike_set ⟨_, rfl, ?_⟩
      show Option.Rel _ (l.cache.map _) (live.map _)
      revert hlive
      generalize l.cache = cache
      rintro (hrep | -)
      · exact .some (hrep.applyAll entries)
      · exact .none

/-- What was read before does not change the dates that a todo gets. -/
theorem Keeps.date_eq (h : Keeps l m) : m.unread.date = l.date := by
  obtain ⟨live, rfl, -⟩ := h
  exact FileLedger.date_congr rfl

/-- Writing goes alike. -/
theorem alike_write (h : Keeps l m) (candidates : Batch) (scope : Scope) :
    Alike Keeps (FileLedger.write candidates scope) (write candidates scope) l m := by
  rw [FileLedger.write_eq]
  refine alike_liveTodos_bind h fun b x l' m' hrep h' => alike_get_bind ?_
  have hfresh : (candidates.toList.filter fun c => !x.containsKey c.key) = FileLedger.fresh candidates b := by
    simp only [hrep.containsKey_eq]
    rfl
  have hstale : (x.recordsWhere fun t => scope.covers t && scope.owns t && !candidates.contains t.key) =
      FileLedger.stale candidates scope b := by
    rw [hrep.recordsWhere, Batch.toList_filter]
    rfl
  rw [hfresh, hstale, h'.date_eq]
  have hentries : (FileLedger.fresh candidates b).map (fun t => (⟨.add, l'.date (some scope.policy) t⟩ : LogEntry)) ++
      (FileLedger.stale candidates scope b).map (⟨.remove, ·⟩) = l'.writeEntries candidates scope b := by
    rw [FileLedger.writeEntries, FileLedger.datedFresh, List.map_map]
    rfl
  dsimp only
  rw [hentries]
  exact alike_bind (alike_append h' _) fun _ _ _ _ _ h'' => alike_pure h'' _

/-- Sorting the live todos goes alike. -/
theorem alike_sortOut (h : Keeps l m) (candidates : Batch) (scope : Scope) :
    Alike Keeps (FileLedger.sortOut candidates scope) (sortOut candidates scope) l m := by
  refine alike_liveTodos_bind h fun b x l' m' hrep h' => alike_get_bind ?_
  have hsort : m'.unread.sortOne = l'.sortOne := by
    obtain ⟨live, rfl, -⟩ := h'
    rfl
  have hentries : (b.filter scope.covers).entries = (x.recordsWhere scope.covers).map Keyed.of := by
    rw [hrep.recordsWhere, Batch.toList, List.map_map]
    exact (List.map_id'' (fun k => Batch.of_todo k) _).symm
  rw [hsort, hentries, List.foldl_map]
  exact alike_pure h' _

/-- Exchanging goes alike. -/
theorem alike_exchange (h : Keeps l m) (add remove : Batch) :
    Alike Keeps (FileLedger.exchange add remove) (exchange add remove) l m := by
  unfold FileLedger.exchange exchange
  refine alike_get_bind ?_
  rw [h.date_eq]
  exact alike_append h _

/-- Writing the log anew goes alike. -/
theorem alike_compact (h : Keeps l m) : Alike Keeps FileLedger.compact compact l m := by
  unfold FileLedger.compact compact
  refine alike_get_bind ?_
  obtain ⟨live, rfl, hlive⟩ := h
  have hkeeps : Keeps l ⟨l.files, l.baseDir, l.today, live⟩ := ⟨live, rfl, hlive⟩
  have hread : (unread ⟨l.files, l.baseDir, l.today, live⟩).readEntries = l.readEntries := rfl
  dsimp only
  rw [hread]
  refine alike_bind (LedgerM.alike_ofExcept hkeeps _) fun entries l' m' hl hm h' => ?_
  obtain ⟨-, rfl⟩ := LedgerM.yields_ofExcept.mp hl
  obtain ⟨-, rfl⟩ := LedgerM.yields_ofExcept.mp hm
  split
  · exact alike_pure h' 0
  · have hrep := LiveSet.represents_fold entries
    rw [hrep.records, hrep.len_eq]
    have hpath : (unread ⟨l'.files, l'.baseDir, l'.today, live⟩).storagePath = l'.storagePath := rfl
    rw [hpath]
    cases l'.files.write? l'.storagePath (LogEntry.encode ((LogEntry.live entries).toList.map (⟨.add, ·⟩))) with
    | none => exact alike_throw h' _
    | some files =>
      refine alike_bind (alike_set ?_) fun _ _ _ _ _ h'' => alike_pure h'' _
      exact ⟨_, rfl, .some (LiveSet.represents_fold _)⟩

/-! ## Runs -/

variable {o : RunOptions} {read : FileLedger → String → Option String} {read' : MapLedger → String → Option String}

/-- The ledgers answer the same to what a run asks of them. -/
theorem simulates_keeps (o : RunOptions) (hread : ∀ {l m}, Keeps l m → read l = read' m) :
    Run.Simulates (fun _ _ => True) Keeps o read read' where
  configProblem := by
    rintro l m ⟨live, rfl, -⟩
    rfl
  policy := by
    rintro l m ⟨live, rfl, -⟩
    rfl
  hasStorage := by
    rintro l m ⟨live, rfl, -⟩
    rfl
  severityCode := by
    rintro l m ⟨live, rfl, -⟩
    have hsame : (unread ⟨l.files, l.baseDir, l.today, live⟩).severity = l.severity := FileLedger.severity_congr rfl
    show (fun t => (l.severity t).code) = fun t => ((unread ⟨l.files, l.baseDir, l.today, live⟩).severity t).code
    rw [hsame]
  read := hread
  write h _ _ _ := alike_write h _ _
  sortOut h _ _ _ := alike_sortOut h _ _
  clear _ _ _ _ _ _ _ _ h := alike_exchange h _ _

/-- Whole runs go alike, in whatever mode: they answer the same, or fail for the same cause, and the ledgers keep the
same afterwards. -/
theorem alike_formatter (hread : ∀ {l m}, Keeps l m → read l = read' m) (h : Keeps l m)
    (results : List LintResult) :
    Alike Keeps (Run.formatter o read results) (Run.formatter o read' results) l m := by
  cases hcompact : o.compactOnly with
  | false =>
    exact (simulates_keeps o hread).alike_formatter h hcompact results fun _ _ _ _ _ _ _ _ _ _ _ => trivial
  | true =>
    unfold Run.formatter
    refine alike_get_bind ?_
    rw [(simulates_keeps o hread).prepare_eq h]
    refine alike_bind (Run.alike_ofExcept h _) fun prepared _ _ _ _ h' => ?_
    dsimp only
    rw [hcompact, if_pos rfl, if_pos rfl]
    exact alike_bind (Run.alike_onLedger (alike_compact h')) fun _ _ _ _ _ h'' => alike_pure h'' _

end MapLedger

end LintDebt
