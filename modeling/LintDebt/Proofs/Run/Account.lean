import LintDebt.Proofs.Ledger.Account
import LintDebt.Proofs.Run.Confinement
import LintDebt.Proofs.Run.Repetition
import LintDebt.Proofs.Run.History

/-!
# The account of a run

What a run counts as added and removed is what it books in the ledger, whatever results it is given: each
entry changes the live todos, and no other entry gets into the log.

* `LintDebt.Run.booked_settle`, `booked_reconcile`: what the work on one file books.
* `LintDebt.Run.booked_files`, `booked_formatter`: what a run books.
* `LintDebt.Series`: runs that all answer, one after the other.
* `LintDebt.Series.exists_audited`: what they leave in a log that was not there before.
* `LintDebt.tally_formatter`: the tally of a run accounts for the ledger.
-/

namespace LintDebt

open FileLedger (Audited Booked Books)
open LogEntry (count)
open Run (formatter)

namespace Run

variable {o : RunOptions} {policy : DecayPolicy} {read : FileLedger → String → Option String}
  {results : List LintResult} {r : LintResult} {l l' : FileLedger} {live : Batch} {out : RunOutcome}

/-! ## One file -/

/-- Writing the candidates, or not, books what it says. -/
theorem booked_writeIf {candidates : Batch} {scope : Scope} {summary : WriteSummary}
    (hy : Yields (writeIf o candidates scope) l summary l') :
    Booked l l' summary.added summary.removed := by
  unfold writeIf at hy
  split at hy
  · exact FileLedger.booked_write (yields_onLedger.mp hy)
  · obtain ⟨rfl, rfl⟩ := yields_pure.mp hy
    exact .refl _

/-- Taking live todos out books one removal for each. -/
theorem booked_clear (hcache : l.cache = some live) {stale : Batch}
    (hlive : ∀ t ∈ stale.toList, live.contains t.key = true) {u : PUnit}
    (hy : Yields (clear stale) l u l') : Booked l l' 0 stale.size := by
  unfold clear at hy
  split at hy
  · next hempty =>
    obtain ⟨-, rfl⟩ := yields_pure.mp hy
    rw [Batch.isEmpty, List.isEmpty_iff] at hempty
    rw [Batch.size, hempty]
    exact .refl _
  · exact FileLedger.booked_exchange hcache hlive (yields_onLedger.mp hy)

/-- What follows the writing books the removals that it counts. -/
theorem booked_settle {candidates : Batch} {scope : Scope} {step : FileStep}
    (hy : Yields (settle o candidates scope) l step l') : Booked l l' 0 step.removed := by
  obtain ⟨batches, l₁, u, changes, hsort, hclear, -, rfl⟩ := yields_settle.mp hy
  obtain ⟨live, hcurrent⟩ := FileLedger.exists_currentLive_of_sortOut hsort
  obtain ⟨rfl, -⟩ := FileLedger.toList_sortOut hcurrent hsort
  have hsorted : Booked l (l.remembering live) 0 0 :=
    ⟨[], FileLedger.books_remembering hcurrent, rfl, rfl⟩
  split at hclear
  · next hcleaning =>
    rw [if_pos hcleaning]
    -- the todos that are cleared come from the live ones, so each removal takes one out
    have hcleared := hsorted.trans
      (booked_clear rfl (FileLedger.contains_of_mem_sorted hcurrent hsort) hclear)
    rwa [Nat.zero_add, Nat.zero_add] at hcleared
  · next hcleaning =>
    obtain ⟨-, rfl⟩ := yields_pure.mp hclear
    rw [if_neg hcleaning]
    exact hsorted

/-- The work on one file books what it counts. -/
theorem booked_reconcile {step : FileStep} (hy : Yields (reconcile o policy read r) l step l') :
    Booked l l' step.added step.removed := by
  cases hsource : r.sourcePath.isEmpty with
  | true =>
    rw [reconcile_of_sourceless o policy read hsource] at hy
    obtain ⟨rfl, rfl⟩ := yields_pure.mp hy
    exact .refl _
  | false =>
    obtain ⟨summary, l₁, hwrite, hsettle⟩ := (yields_reconcile hsource).mp hy
    have hwritten := booked_writeIf hwrite
    rcases yields_settleIf.mp hsettle with ⟨-, rfl, rfl⟩ | ⟨-, settled, hsettled, rfl⟩
    · exact hwritten
    · exact hwritten.trans (booked_settle hsettled)

/-! ## A whole run -/

/-- The work on the first files books what it counts. -/
theorem booked_files {n : Nat} {p p' : Progress}
    (hy : Yields ((List.range n).foldlM (advance o policy read) p) l p' l') :
    ∃ added removed, Booked l l' added removed ∧ p'.tally.added = p.tally.added + added ∧
      p'.tally.removed = p.tally.removed + removed := by
  induction n generalizing p' l' with
  | zero =>
    obtain ⟨rfl, rfl⟩ := yields_pure.mp hy
    exact ⟨0, 0, .refl _, rfl, rfl⟩
  | succ n ih =>
    obtain ⟨q, l₁, hfirst, hlast⟩ := yields_foldlM_range_succ.mp hy
    obtain ⟨added, removed, hbooked, hadded, hremoved⟩ := ih hfirst
    rcases yields_advance.mp hlast with ⟨-, rfl, rfl⟩ | ⟨r, step, -, hstep, rfl⟩
    · exact ⟨added, removed, hbooked, hadded, hremoved⟩
    · refine ⟨_, _, hbooked.trans (booked_reconcile hstep), ?_, ?_⟩
      · show q.tally.added + step.added = _
        rw [hadded, Nat.add_assoc]
      · show q.tally.removed + step.removed = _
        rw [hremoved, Nat.add_assoc]

/-- A run that does more than shorten the storage books what its tally says. -/
theorem booked_formatter (hcompact : o.compactOnly = false)
    (hy : Yields (formatter o read results) l out l') :
    Booked l l' out.tally.added out.tally.removed := by
  obtain ⟨policy, p, -, hfiles, -, htally⟩ := yields_formatter hcompact hy
  obtain ⟨added, removed, hbooked, hadded, hremoved⟩ := booked_files hfiles
  rw [htally, hadded, hremoved, Nat.zero_add, Nat.zero_add]
  exact hbooked

end Run

/-! ## Runs one after the other -/

/-- Runs that all answer, one after the other, of which none only shortens the log. -/
inductive Series : FileLedger → List RunOutcome → FileLedger → Prop
  | nil (l : FileLedger) : Series l [] l
  | cons {l l' l'' : FileLedger} {v : Visit} {out : RunOutcome} {outs : List RunOutcome} :
    v.Finds l → v.options.compactOnly = false → v.Answers l out l' → Series l' outs l'' →
      Series l (out :: outs) l''

/-- How many todos runs have removed, all together. -/
def totalRemoved (outs : List RunOutcome) : Nat :=
  (outs.map (·.tally.removed)).sum

variable {v : Visit} {l l' : FileLedger} {entries : List LogEntry} {outs : List RunOutcome}

/-- A run that finds the log as it was starts on the same account.  When the ledger is opened anew, what it
remembered and the log lacks is no longer live. -/
theorem Visit.audited_enter {before : Nat} (h : Audited before l entries) (hfinds : v.Finds l) :
    Audited before (v.enter l) entries where
  reads := (readEntries_enter hfinds).trans h.reads
  current := by
    obtain ⟨live, hcurrent, hcovered, hsize⟩ := h.current
    have hpart := hcovered.size_le
    have hread : (v.enter l).readEntries.map LogEntry.live = .ok (LogEntry.live entries) := by
      rw [readEntries_enter hfinds, h.reads]
      rfl
    unfold FileLedger.currentLive at hcurrent ⊢
    rw [cache_enter]
    cases v.reopening with
    | true => exact ⟨_, hread, .refl _, by omega⟩
    | false =>
      cases hcache : l.cache with
      | none => exact ⟨_, hread, .refl _, by omega⟩
      | some b =>
        rw [hcache] at hcurrent
        exact ⟨live, hcurrent, hcovered, hsize⟩
  endsWhole s hs := by
    rw [FileLedger.storagePath_congr baseDir_enter, files_enter] at hs
    exact h.endsWhole s (hfinds ▸ hs)
  added_le := h.added_le

/-- Runs book in the log what they count. -/
theorem Series.exists_audited {before : Nat} (h : Series l outs l') (haudited : Audited before l entries) :
    ∃ more, Audited before l' (entries ++ more) ∧ count .remove more = totalRemoved outs := by
  induction h generalizing entries with
  | nil l => exact ⟨[], by rwa [List.append_nil], rfl⟩
  | cons hfinds hworking hy _ ih =>
    obtain ⟨new, hbooks, -, hremoved⟩ := Run.booked_formatter hworking hy
    have hafter := (Visit.audited_enter haudited hfinds).books hbooks
    obtain ⟨more, hmore, hcount⟩ := ih hafter
    refine ⟨new.map .stored ++ more, ?_, ?_⟩
    · rwa [List.append_assoc] at hmore
    · rw [LogEntry.count_append, LogEntry.count_map_stored, hremoved, hcount]
      rfl

/-- The tally of a run accounts for the ledger, in any state and for any results: the run appends as many
additions and as many removals as it says, each of which changes the live todos, so that these become more
by the one and fewer by the other.  After runs on a ledger that has no log before them, writing the log anew drops
twice as many entries as they have removed todos, if the ledger remembers no live todo.  If it does, it may be fewer
entries, but by no more than these todos: a removal of one of them finds no addition in the log. -/
theorem tally_formatter :
    (∀ o read results l l' out, o.compactOnly = false → Yields (formatter o read results) l out l' →
      ∃ entries, Books l l' entries ∧ count .add entries = out.tally.added ∧
        count .remove entries = out.tally.removed ∧
        (l.EndsWhole → l'.readEntries = l.readEntries.map (· ++ entries.map .stored)) ∧
        ∀ live, l.currentLive = .ok live → ∃ live', l'.currentLive = .ok live' ∧
          live'.size + out.tally.removed = live.size + out.tally.added) ∧
      ∀ l outs l', l.files.contents? l.storagePath = none → Series l outs l' →
        ∀ m : FileLedger, m.baseDir = l'.baseDir →
          m.files.contents? l'.storagePath = l'.files.contents? l'.storagePath →
            ∃ n m', Yields FileLedger.compact m n m' ∧ (l.sizeRemembered = 0 → n = 2 * totalRemoved outs) ∧
              n ≤ 2 * totalRemoved outs ∧ 2 * totalRemoved outs ≤ n + l.sizeRemembered := by
  constructor
  · intro o read results l l' out hcompact hy
    obtain ⟨entries, hbooks, hadded, hremoved⟩ := Run.booked_formatter hcompact hy
    refine ⟨entries, hbooks, hadded, hremoved, hbooks.appends.readEntries_eq, fun live hlive => ?_⟩
    obtain ⟨heffective, hcurrent⟩ := hbooks.live live hlive
    refine ⟨_, hcurrent, ?_⟩
    rw [← hadded, ← hremoved]
    exact heffective.size_applyAll
  · intro l outs l' hlog hseries m hdir hsame
    obtain ⟨more, haudited, hcount⟩ := hseries.exists_audited (Audited.nil hlog)
    rw [List.nil_append] at haudited
    obtain ⟨n, m', hy, hmost, hleast⟩ := haudited.exists_yields_compact hdir hsame
    rw [hcount] at hmost hleast
    exact ⟨n, m', hy, fun hnone => by omega, hmost, hleast⟩

/-- A run that writes a todo and takes it out at once. -/
def exampleForgetting : Visit where
  reopening := true
  today := FileLedger.exampleDay
  files := Run.noFiles
  options := Run.exampleUpdate
  read := Run.exampleRead
  results := [Run.exampleResult]

/-- The run that takes out what it writes counts one of each, and writing the log anew drops both. -/
theorem tally_formatter_of_example :
    ∃ out l', exampleForgetting.Answers exampleStart out l' ∧
      (∃ entries, Books (exampleForgetting.enter exampleStart) l' entries ∧
        count .add entries = 1 ∧ count .remove entries = 1) ∧
      ∃ m', Yields FileLedger.compact l' 2 m' := by
  -- the counts come from running it, the rest from the general account
  have hcounts : ((formatter exampleForgetting.options exampleForgetting.read
      exampleForgetting.results).run.run (exampleForgetting.enter exampleStart)).1.toOption.map
        (fun out => (out.tally.added, out.tally.removed)) = some (1, 1) := by
    decide +kernel
  obtain ⟨out, l', hy, hseen⟩ := exists_yields_of_toOption hcounts
  obtain ⟨hadded, hremoved⟩ := Prod.mk.inj hseen
  obtain ⟨entries, hbooks, hadd, hremove, -⟩ := tally_formatter.1 _ _ _ _ _ out rfl hy
  have hseries : Series exampleStart [out] l' := .cons (v := exampleForgetting) rfl rfl hy (.nil l')
  obtain ⟨n, m', hcompact, hexact, -⟩ := tally_formatter.2 exampleStart [out] l' rfl hseries l' rfl rfl
  have htotal : totalRemoved [out] = 1 := hremoved
  obtain rfl : n = 2 := by rw [hexact rfl, htotal]
  exact ⟨out, l', hy, ⟨entries, hbooks, hadd.trans hadded, hremove.trans hremoved⟩, m', hcompact⟩

/-- A run that finds the error of a remembered todo gone, like the log of the todo. -/
def exampleMissing : Visit where
  reopening := false
  today := FileLedger.exampleDay
  files := Run.noFiles
  options := Run.exampleRenew
  read := Run.exampleRead
  results := [Run.exampleFixed]

/-- A ledger that remembers a todo whose log is gone takes it out by the only entry of a new log: one todo is
removed, and writing the log anew drops one entry, which is not twice as many. -/
theorem tally_formatter_of_lost :
    Run.exampleLost.files.contents? Run.exampleLost.storagePath = none ∧
      ∃ out l', Series Run.exampleLost [out] l' ∧ out.tally.added = 0 ∧ out.tally.removed = 1 ∧
        ∃ n m', Yields FileLedger.compact l' n m' ∧ n = 1 ∧ n ≠ 2 * totalRemoved [out] := by
  have hcounts : ((formatter exampleMissing.options exampleMissing.read exampleMissing.results).run.run
      (exampleMissing.enter Run.exampleLost)).1.toOption.map
        (fun out => (out.tally.added, out.tally.removed)) = some (0, 1) := by
    decide +kernel
  obtain ⟨out, l', hy, hseen⟩ := exists_yields_of_toOption hcounts
  obtain ⟨hadded, hremoved⟩ := Prod.mk.inj hseen
  obtain ⟨entries, hbooks, hadd, hremove⟩ := Run.booked_formatter rfl hy
  have hread : l'.readEntries = .ok (entries.map .stored) :=
    hbooks.appends.readEntries_eq fun _ h => nomatch h
  rw [hadded] at hadd
  rw [hremoved] at hremove
  -- the one entry of the log removes what the log never had
  obtain ⟨⟨op, t⟩, rfl⟩ : ∃ e, entries = [e] := by
    rw [← List.length_eq_one_iff, LogEntry.length_eq_count, hadd, hremove]
  cases op with
  | add => cases hadd
  | remove =>
    obtain ⟨m', hcompact⟩ := FileLedger.exists_yields_compact hread
    have htotal : totalRemoved [out] = 1 := hremoved
    have hseries : Series Run.exampleLost [out] l' := .cons (v := exampleMissing) rfl rfl hy (.nil l')
    refine ⟨rfl, out, l', hseries, hadded, hremoved, 1, m', hcompact, rfl, ?_⟩
    rw [htotal]
    decide

end LintDebt
