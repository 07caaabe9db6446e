import LintDebt.Proofs.Config
import LintDebt.Proofs.Run.Formatter

/-!
# How runs fail

A run on a ledger in a file fails before it has done anything, or because the log cannot be written.  The
configuration is read before the files are worked on; and of the files, the first one for which the live todos
are asked for is the last one for which this can fail, since the ledger remembers them from then on.

* `LintDebt.FileLedger.Writable`: the log can be opened for writing.
* `LintDebt.FileLedger.fails_write`, `fails_sortOut`, `fails_exchange`, `fails_compact`: how the operations of
  a ledger fail.
* `LintDebt.LedgerError.inConfig`, `LintDebt.RunError.inPreparation`: the causes that lie in the configuration,
  and in the options.
* `LintDebt.Run.fails_reconcile`: how the work on one file fails.
* `LintDebt.Run.untouched_or_remembers`: after the first files, the ledger is as it was, or remembers its live
  todos.
* `LintDebt.Run.Failure`, `LintDebt.Run.fails_formatter`: how a run fails.
* `LintDebt.Run.ledger_of_failed_formatter`: a run that fails leaves the ledger as it is, unless the log cannot be
  written.
-/

namespace LintDebt.FileLedger

variable {l l' m : FileLedger}

/-! ## Writing the log -/

/-- The log can be opened for writing: it is there, or it can be made. -/
def Writable (l : FileLedger) : Prop :=
  (l.files.append? l.storagePath "").isSome = true

/-- A log that can be opened can be changed in any way. -/
theorem Writable.isSome_update? (h : l.Writable) (change : Option Contents → Contents) :
    (l.files.update? change l.storagePath).isSome = true := by
  rw [← h]
  exact (FileTree.SameBut.refl l.storagePath l.files).isSome_update? _ change

/-- Ledgers in one directory whose files differ in the log alone can both be written, or neither. -/
theorem writable_iff_of_sameBut (hdir : m.baseDir = l.baseDir)
    (hfiles : FileTree.SameBut l.storagePath l.files m.files) : m.Writable ↔ l.Writable := by
  unfold Writable
  rw [storagePath_congr hdir]
  exact Bool.eq_iff_iff.mp (hfiles.isSome_update? _ _)

/-- A log that is there can be written. -/
theorem writable_of_isFile (h : l.files.isFile l.storagePath = true) : l.Writable := by
  obtain ⟨held, hheld⟩ := Option.isSome_iff_exists.mp h
  obtain ⟨files, hfiles⟩ := FileTree.exists_update?_of_contents? isName_storageFile hheld
    fun held => (held.getD (.text "")).append ""
  exact Option.isSome_iff_exists.mpr ⟨files, hfiles⟩

/-! ## Operations that fail -/

/-- Entries are not appended only when the log cannot be written. -/
theorem fails_append (entries : List LogEntry) :
    Fails (fun c _ => c = .file .openStorage l.storagePath ∧ ¬ l.Writable) (append entries) l := by
  unfold append
  split
  · exact fails_pure ()
  · apply fails_get_bind
    split
    · next hnone =>
      apply fails_throw
      refine ⟨rfl, fun hwritable => ?_⟩
      have hsome := hwritable.isSome_update?
        fun held => (held.getD (.text "")).append (LogEntry.encode entries)
      rw [show l.files.update? _ l.storagePath = none from hnone] at hsome
      cases hsome
    · next files _ =>
      intro e s' h
      cases h

/-- The live todos are asked for in vain only when they cannot be read. -/
theorem fails_liveTodos : Fails (fun c s => l.currentLive = .error c ∧ s = l) liveTodos l := by
  unfold liveTodos
  apply fails_get_bind
  apply fails_bind
  · exact LedgerM.fails_ofExcept fun c hc => ⟨hc, rfl⟩
  · intro live s hlive e s' h
    cases h

/-- How an operation fails that asks for the live todos and then appends entries: the live todos cannot be
read, and the ledger is as it was; or the log cannot be written. -/
def Unfinished (l : FileLedger) (c : LedgerError) (s : FileLedger) : Prop :=
  (l.currentLive = .error c ∧ s = l) ∨ ((∃ path, c = .file .openStorage path) ∧ ¬ l.Writable)

/-- A write fails when the live todos cannot be read or the log cannot be written. -/
theorem fails_write (candidates : Batch) (scope : Scope) :
    Fails l.Unfinished (write candidates scope) l := by
  rw [write_eq]
  refine fails_bind (fails_liveTodos.imp fun c s h => .inl h) fun live s hlive => fails_get_bind ?_
  obtain ⟨-, rfl⟩ := yields_liveTodos.mp hlive
  refine fails_bind ((fails_append _).imp fun c s h => ?_) fun _ _ _ => fails_pure _
  exact .inr ⟨⟨_, h.1⟩, h.2⟩

/-- The live todos are not sorted only when they cannot be read. -/
theorem fails_sortOut (candidates : Batch) (scope : Scope) :
    Fails l.Unfinished (sortOut candidates scope) l := by
  unfold sortOut
  exact fails_bind (fails_liveTodos.imp fun c s h => .inl h) fun _ _ _ => fails_get_bind (fails_pure _)

/-- Todos are not exchanged only when the log cannot be written. -/
theorem fails_exchange (add remove : Batch) :
    Fails (fun c _ => (∃ path, c = .file .openStorage path) ∧ ¬ l.Writable) (exchange add remove) l := by
  unfold exchange
  exact fails_get_bind ((fails_append _).imp fun c s h => ⟨⟨_, h.1⟩, h.2⟩)

/-- The log is not written anew only when it cannot be read, and the ledger is as it was, or cannot be
written. -/
theorem fails_compact : Fails (fun c s => (l.readEntries = .error c ∧ s = l) ∨
    ((∃ path, c = .file .writeStorage path) ∧ ¬ l.Writable)) compact l := by
  rw [compact_eq]
  apply fails_get_bind
  apply fails_bind
  · exact LedgerM.fails_ofExcept fun c hc => .inl ⟨hc, rfl⟩
  · intro entries s hentries
    obtain ⟨-, rfl⟩ := LedgerM.yields_ofExcept.mp hentries
    unfold rewrite
    split
    · exact fails_pure 0
    · split
      · next hnone =>
        apply fails_throw
        refine .inr ⟨⟨_, rfl⟩, fun hwritable => ?_⟩
        have hsome := hwritable.isSome_update? fun _ => .text (LogEntry.encode (kept entries))
        rw [show s.files.update? _ s.storagePath = none from hnone] at hsome
        cases hsome
      · intro e s' h
        cases h

/-- The live todos cannot be read only when the log cannot. -/
theorem readEntries_of_currentLive {c : LedgerError} (h : l.currentLive = .error c) :
    l.readEntries = .error c ∧ l.cache = none := by
  unfold currentLive at h
  cases hcache : l.cache with
  | some live =>
    rw [hcache] at h
    cases h
  | none =>
    rw [hcache] at h
    cases hread : l.readEntries with
    | ok entries =>
      rw [hread] at h
      cases h
    | error c' =>
      rw [hread] at h
      cases h
      exact ⟨rfl, rfl⟩

end LintDebt.FileLedger

/-! ## Causes that lie before the work -/

namespace LintDebt

/-- Whether a cause lies in the configuration. -/
def LedgerError.inConfig : LedgerError → Bool
  | .unreadableConfig _ | .invalidDecay _ _ | .file .readConfig _ => true
  | _ => false

/-- Whether a run may fail for a cause before it has started: it lies in the options or in the configuration. -/
def RunError.inPreparation : RunError → Bool
  | .invalidConfig _ | .overrideWithoutUpdate | .unknownFormat _ => true
  | .ledger c => c.inConfig
  | .unknownSeverity _ => false

namespace Config

variable {files : FileTree} {baseDir engine : String} {overrides : DecayWindow} {c : LedgerError}

/-- A cause in a source of the configuration is one in the configuration. -/
theorem inConfig_of_inSource (h : c.inSource = true) : c.inConfig = true := by
  unfold LedgerError.inSource at h
  split at h
  · rfl
  · rfl
  · cases h

/-- A policy that cannot be loaded fails for a cause in the configuration. -/
theorem inConfig_of_load (h : load files baseDir engine overrides = .error c) : c.inConfig = true := by
  have hcheck (p : DecayPolicy) (hp : check p = .error c) : c.inConfig = true := by
    unfold check at hp
    split at hp
    · cases hp
      rfl
    · cases hp
  unfold load at h
  rcases bind_eq_error.mp h with hsource | ⟨_ | ⟨path, raw⟩, -, h⟩
  · exact inConfig_of_inSource (inSource_of_source hsource)
  · exact hcheck _ h
  · dsimp only at h
    split at h
    · exact hcheck _ h
    · cases h
      rfl

end Config

end LintDebt

/-! ## Runs -/

namespace LintDebt.FileLedger

variable {l m k : FileLedger} {c : LedgerError}

/-- A ledger that another has become: it is the other one still, or it remembers its live todos; and it can be
written if the other could. -/
structure Reached (l m : FileLedger) : Prop where
  remembers : m = l ∨ m.cache.isSome = true
  writable : m.Writable ↔ l.Writable

/-- A ledger that nothing was done to. -/
theorem Reached.refl (l : FileLedger) : l.Reached l :=
  ⟨.inl rfl, Iff.rfl⟩

/-- What a ledger has become goes on. -/
theorem Reached.trans (h : l.Reached m) (h' : m.Reached k) : l.Reached k := by
  refine ⟨?_, h'.writable.trans h.writable⟩
  rcases h'.remembers with rfl | hcache
  · exact h.remembers
  · exact .inr hcache

/-- What cannot be finished later could not be finished before: if the live todos cannot be read, nothing was
done so far. -/
theorem Unfinished.of_reached {s : FileLedger} (h : l.Reached m) (hfails : m.Unfinished c s) :
    l.Unfinished c s := by
  rcases hfails with ⟨hcurrent, rfl⟩ | ⟨hopen, hwritable⟩
  · rcases h.remembers with rfl | hcache
    · exact .inl ⟨hcurrent, rfl⟩
    · rw [(readEntries_of_currentLive hcurrent).2] at hcache
      cases hcache
  · exact .inr ⟨hopen, fun hl => hwritable (h.writable.mpr hl)⟩

end LintDebt.FileLedger

namespace LintDebt.Run

open FileLedger (Unfinished Reached Writable)

variable {o : RunOptions} {policy : DecayPolicy} {read : FileLedger → String → Option String}
  {results : List LintResult} {r : LintResult} {l l' : FileLedger} {candidates : Batch} {scope : Scope}
  {step : FileStep} {p : Progress} {n : Nat} {e : RunError}

/-- Steps whose changes an invariant knows of leave the log as writable as it was. -/
theorem writable_of_ends {α : Type} {x : RunM FileLedger α} {a : α} (hy : Yields x l a l')
    (hends : Ends (fun m => m.baseDir = l.baseDir ∧ FileTree.SameBut l.storagePath l.files m.files) x l) :
    l'.Writable ↔ l.Writable := by
  obtain ⟨hdir, hfiles⟩ := hends.of_yields hy
  exact FileLedger.writable_iff_of_sameBut hdir hfiles

/-- Once the candidates of a file are written, or not, the ledger is as it was or remembers its live todos. -/
theorem reached_writeIf {summary : WriteSummary} (hy : Yields (writeIf o candidates scope) l summary l') :
    l.Reached l' := by
  refine ⟨?_, writable_of_ends hy (ends_writeIf (FileLedger.invariant_sameBut l) ⟨rfl, .refl _ _⟩ o _ _)⟩
  unfold writeIf at hy
  split at hy
  · obtain ⟨live, hcurrent, -⟩ := FileLedger.yields_write.mp (yields_onLedger.mp hy)
    obtain ⟨hcache, -⟩ := FileLedger.cached_write hcurrent (yields_onLedger.mp hy)
    rw [hcache]
    exact .inr rfl
  · exact .inl (yields_pure.mp hy).2

/-- Once they are settled, the ledger remembers its live todos. -/
theorem reached_settle (hy : Yields (settle o candidates scope) l step l') : l.Reached l' := by
  refine ⟨.inr ?_, writable_of_ends hy (ends_settle (FileLedger.invariant_sameBut l) ⟨rfl, .refl _ _⟩ o _ _)⟩
  obtain ⟨batches, l₁, u, changes, hsort, hclear, -, -⟩ := yields_settle.mp hy
  obtain ⟨live, hcurrent⟩ := FileLedger.exists_currentLive_of_sortOut hsort
  obtain ⟨rfl, -⟩ := FileLedger.toList_sortOut hcurrent hsort
  obtain ⟨-, live', hcache, -⟩ := cached_clearIf (l := l.remembering live) rfl hclear
  rw [hcache]
  rfl

/-- After the work on one file, the ledger is as it was or remembers its live todos. -/
theorem reached_reconcile (hy : Yields (reconcile o policy read r) l step l') : l.Reached l' := by
  cases hsource : r.sourcePath.isEmpty with
  | true =>
    rw [reconcile_of_sourceless o policy read hsource] at hy
    obtain ⟨-, rfl⟩ := yields_pure.mp hy
    exact .refl l'
  | false =>
    obtain ⟨summary, l₁, hwrite, hsettle⟩ := (yields_reconcile hsource).mp hy
    apply (reached_writeIf hwrite).trans
    rcases yields_settleIf.mp hsettle with ⟨-, rfl, -⟩ | ⟨-, settled, hsettled, -⟩
    · exact .refl l'
    · exact reached_settle hsettled

/-- After the work on the first files, the ledger is as it was or remembers its live todos. -/
theorem untouched_or_remembers
    (hy : Yields ((List.range n).foldlM (advance o policy read) { results }) l p l') : l.Reached l' := by
  induction n generalizing p l' with
  | zero =>
    obtain ⟨-, rfl⟩ := yields_pure.mp hy
    exact .refl l'
  | succ n ih =>
    obtain ⟨q, l₁, hfirst, hlast⟩ := yields_foldlM_range_succ.mp hy
    apply (ih hfirst).trans
    rcases yields_advance.mp hlast with ⟨-, -, rfl⟩ | ⟨r, step, -, hstep, -⟩
    · exact .refl l'
    · exact reached_reconcile hstep

/-- How the work on files fails: one of the operations of the ledger cannot be finished. -/
def Interrupted (l : FileLedger) (e : RunError) (s : FileLedger) : Prop :=
  ∃ c, e = .ledger c ∧ l.Unfinished c s

/-- The severity of a todo in a file ledger always has a code that is known. -/
theorem demotions_ne_error (l : FileLedger) (ts : List Todo) (changes : Changes) :
    demotions l ts changes ≠ .error e := by
  induction ts generalizing changes with
  | nil => exact nofun
  | cons t rest ih =>
    have hcode : Severity.ofCode? (Ledger.severityCode l t) = some (l.severity t) :=
      Severity.ofCode?_code _
    rw [demotions, hcode]
    cases l.severity t <;> exact ih _

/-- Writing the candidates of a file fails as an operation of the ledger. -/
theorem fails_writeIf : Fails (Interrupted l) (writeIf o candidates scope) l := by
  unfold writeIf
  split
  · exact fails_onLedger ((FileLedger.fails_write candidates scope).imp fun c s h => ⟨c, rfl, h⟩)
  · exact fails_pure _

/-- What follows the writing fails as an operation of the ledger. -/
theorem fails_settle : Fails (Interrupted l) (settle o candidates scope) l := by
  rw [settle_eq]
  apply fails_bind
  · exact fails_onLedger ((FileLedger.fails_sortOut candidates scope).imp fun c s h => ⟨c, rfl, h⟩)
  intro batches l₁ hsort
  obtain ⟨live, hcurrent⟩ := FileLedger.exists_currentLive_of_sortOut (yields_onLedger.mp hsort)
  obtain ⟨rfl, -⟩ := FileLedger.toList_sortOut hcurrent (yields_onLedger.mp hsort)
  apply fails_bind
  · split
    · unfold clear
      split
      · exact fails_pure _
      · exact fails_onLedger ((FileLedger.fails_exchange _ _).imp fun c s h => ⟨c, rfl, .inr h⟩)
    · exact fails_pure _
  intro _ l₂ _
  apply fails_get_bind
  apply fails_bind
  · exact fails_ofExcept fun e he => absurd he (demotions_ne_error _ _ _)
  · exact fun _ _ _ => fails_pure _

/-- The work on one file fails as an operation of the ledger. -/
theorem fails_reconcile : Fails (Interrupted l) (reconcile o policy read r) l := by
  cases hsource : r.sourcePath.isEmpty with
  | true =>
    rw [reconcile_of_sourceless o policy read hsource]
    exact fails_pure _
  | false =>
    rw [reconcile_eq o policy read hsource]
    apply fails_get_bind
    apply fails_bind fails_writeIf
    intro summary l₁ hwrite
    have hlater (e : RunError) (s : FileLedger) : Interrupted l₁ e s → Interrupted l e s := by
      rintro ⟨c, rfl, h⟩
      exact ⟨c, rfl, h.of_reached (reached_writeIf hwrite)⟩
    unfold settleIf
    apply fails_get_bind
    split
    · exact fails_bind (fails_settle.imp hlater) fun _ _ _ => fails_pure _
    · exact fails_pure _

/-- A run that cannot be prepared fails for such a cause. -/
theorem inPreparation_of_prepare (h : prepare o l = .error e) : e.inPreparation = true := by
  unfold prepare at h
  split at h
  · cases h
    rfl
  rcases bind_eq_error.mp h with hformat | ⟨format, -, h⟩
  · unfold formatOf? at hformat
    split at hformat
    · cases hformat
    · split at hformat
      · cases hformat
        rfl
      · cases hformat
  split at h
  · cases h
    rfl
  rcases bind_eq_error.mp h with hpolicy | ⟨policy, -, hpure⟩
  · obtain ⟨c, hload, rfl⟩ := mapError_eq_error.mp hpolicy
    exact Config.inConfig_of_load hload
  · cases hpure

/-- How a run fails: it cannot be prepared, or the log cannot be read, and in both cases the ledger is as it
was; or the log cannot be written. -/
inductive Failure (o : RunOptions) (l : FileLedger) : RunError → FileLedger → Prop where
  | unprepared {e : RunError} (h : prepare o l = .error e) : Failure o l e l
  | unread {c : LedgerError} (h : l.readEntries = .error c)
      (hneeded : o.compactOnly = true ∨ l.cache = none) : Failure o l (.ledger c) l
  | unwritten {action : FileAction} {path : String} {s : FileLedger}
      (haction : action = .openStorage ∨ action = .writeStorage) (h : ¬ l.Writable) :
      Failure o l (.ledger (.file action path)) s

/-- A run fails in one of these ways. -/
theorem fails_formatter (o : RunOptions) (read : FileLedger → String → Option String)
    (results : List LintResult) (l : FileLedger) : Fails (Failure o l) (formatter o read results) l := by
  unfold formatter
  apply fails_get_bind
  apply fails_bind
  · exact fails_ofExcept fun e he => .unprepared he
  rintro ⟨format, policy⟩ s hprepared
  obtain ⟨-, rfl⟩ := yields_ofExcept.mp hprepared
  dsimp only
  split
  · next hcompact =>
    refine fails_bind (fails_onLedger (FileLedger.fails_compact.imp fun c t h => ?_)) fun _ _ _ => fails_pure _
    rcases h with ⟨hread, rfl⟩ | ⟨⟨path, rfl⟩, hwritable⟩
    · exact .unread hread (.inl hcompact)
    · exact .unwritten (.inr rfl) hwritable
  · refine fails_bind (fails_foldlM_range fun i q s₁ _ hfirst => ?_) fun _ _ _ => fails_pure _
    have hstep : Fails (Interrupted s₁) (advance o policy read q i) s₁ := by
      unfold advance
      split
      · exact fails_pure _
      · exact fails_bind fails_reconcile fun _ _ _ => fails_pure _
    refine hstep.imp fun e t h => ?_
    obtain ⟨c, rfl, h⟩ := h
    rcases h.of_reached (untouched_or_remembers hfirst) with ⟨hcurrent, rfl⟩ | ⟨⟨path, rfl⟩, hwritable⟩
    · obtain ⟨hread, hcache⟩ := FileLedger.readEntries_of_currentLive hcurrent
      exact .unread hread (.inr hcache)
    · exact .unwritten (.inl rfl) hwritable

/-- A run that fails for another cause than that the log cannot be opened or written leaves the ledger as it is,
its files and its live todos.  It never fails for the severity of a todo.  And when a line of the log is the
cause, it is one that was there when the run started, and nothing has been appended yet. -/
theorem ledger_of_failed_formatter (h : (formatter o read results).run.run l = (.error e, l')) :
    ((∀ path, e ≠ .ledger (.file .openStorage path) ∧ e ≠ .ledger (.file .writeStorage path)) → l' = l) ∧
      (∀ code, e ≠ .unknownSeverity code) ∧
        ∀ path line, e = .ledger (.corrupt path line) →
          l.readEntries = .error (.corrupt path line) ∧ l' = l := by
  cases fails_formatter o read results l e l' h with
  | unprepared hprepare =>
    have hcause := inPreparation_of_prepare hprepare
    refine ⟨fun _ => rfl, ?_, ?_⟩
    · rintro code rfl
      cases hcause
    · rintro path line rfl
      cases hcause
  | unread hread _ =>
    refine ⟨fun _ => rfl, fun code => nofun, ?_⟩
    rintro path line hcause
    cases hcause
    exact ⟨hread, rfl⟩
  | @unwritten action path s haction _ =>
    refine ⟨fun hother => ?_, fun code => nofun, fun _ _ => nofun⟩
    rcases haction with rfl | rfl
    · exact absurd rfl (hother path).1
    · exact absurd rfl (hother path).2

/-- A ledger whose log is no log. -/
def exampleCorrupt : FileLedger :=
  .openIn { root := .directory [(".lint-todo", .file (.text "x\n"))] } "" FileLedger.exampleDay

/-- A run on a log that cannot be read leaves it as it is. -/
theorem ledger_of_failed_formatter_of_corrupt :
    ∃ l', (formatter exampleUpdate exampleRead [exampleResult]).run.run exampleCorrupt =
        (.error (.ledger (.corrupt ".lint-todo" 1)), l') ∧ l' = exampleCorrupt ∧
      exampleCorrupt.readEntries = .error (.corrupt ".lint-todo" 1) := by
  have hcause : (match ((formatter exampleUpdate exampleRead [exampleResult]).run.run exampleCorrupt).1 with
      | .error e => some e
      | .ok _ => none) = some (.ledger (.corrupt ".lint-todo" 1)) := by decide +kernel
  rcases hrun : (formatter exampleUpdate exampleRead [exampleResult]).run.run exampleCorrupt with
    ⟨e | out, l'⟩
  · rw [hrun] at hcause
    obtain rfl := Option.some.inj hcause
    obtain ⟨hsame, -, hcorrupt⟩ := ledger_of_failed_formatter hrun
    exact ⟨l', rfl, hsame fun _ => ⟨nofun, nofun⟩, (hcorrupt _ _ rfl).1⟩
  · rw [hrun] at hcause
    cases hcause

end LintDebt.Run
