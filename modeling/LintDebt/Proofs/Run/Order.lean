import LintDebt.Proofs.Run.Failure
import LintDebt.Proofs.Run.Repetition
import LintDebt.Proofs.Run.Shares

/-!
# The order of the files

When the results of a run are for different files, and keys tell todos apart, their order does not matter: a run
on the same results in another order answers when the first does, changes each result in the same way, counts
the same, and leaves the same live todos, but that those which it has made may stand in another order.

* `LintDebt.Run.exists_yields_files_of_unlogged`, `LintDebt.Run.recorded_of_not_writable`: runs where the log
  cannot be written.
* `LintDebt.Run.exists_yields_formatter_perm`: the run in another order answers.
* `LintDebt.Run.Described`, `LintDebt.Run.described_formatter`: what a run leaves, as a function of each file.
* `LintDebt.Run.LeavesAlike`: two ledgers that a third has become have the same live todos.
* `LintDebt.Run.formatter_perm`: the order does not matter.
* `LintDebt.Run.formatter_perm_of_lost`: it does for a ledger that remembers todos whose log is gone.
-/

namespace LintDebt.Run

variable {o : RunOptions} {policy : DecayPolicy} {r : LintResult} {read : FileLedger → String → Option String}
  {reader : String → Option String} {results results' : List LintResult} {l l' l'' : FileLedger} {live : Batch}
  {out : RunOutcome} {n : Nat}

/-! ## The run in another order answers -/

/-- Without a log, there is nothing to do about a file for which no todos are made. -/
theorem exists_yields_reconcile_of_unlogged (policy : DecayPolicy)
    (read : FileLedger → String → Option String) (r : LintResult) (hkeeps : o.updating = false)
    (hunlogged : l.files.isFile l.storagePath = false) :
    ∃ step, Yields (reconcile o policy read r) l step l := by
  cases hsource : r.sourcePath.isEmpty with
  | true =>
    rw [reconcile_of_sourceless o policy read hsource]
    exact ⟨_, yields_pure.mpr ⟨rfl, rfl⟩⟩
  | false =>
    have hwrite : Yields (writeIf o (candidatesOf o policy (read l r.sourcePath) r) (scopeOf o policy r)) l
        ⟨0, 0⟩ l := by
      unfold writeIf
      rw [hkeeps, if_neg Bool.false_ne_true]
      exact yields_pure.mpr ⟨rfl, rfl⟩
    exact ⟨_, (yields_reconcile hsource).mpr
      ⟨⟨0, 0⟩, l, hwrite, yields_settleIf.mpr (.inl ⟨hunlogged, rfl, rfl⟩)⟩⟩

/-- Without a log, a run that makes no todos has nothing to do. -/
theorem exists_yields_files_of_unlogged (policy : DecayPolicy) (read : FileLedger → String → Option String)
    (results : List LintResult) (hkeeps : o.updating = false)
    (hunlogged : l.files.isFile l.storagePath = false) (n : Nat) :
    ∃ p, Yields ((List.range n).foldlM (advance o policy read) { results }) l p l := by
  induction n with
  | zero => exact ⟨_, yields_pure.mpr ⟨rfl, rfl⟩⟩
  | succ n ih =>
    obtain ⟨p, hfirst⟩ := ih
    obtain ⟨q, hlast⟩ : ∃ q, Yields (advance o policy read p n) l q l := by
      cases hr : p.results[n]? with
      | none => exact ⟨p, yields_advance.mpr (.inl ⟨hr, rfl, rfl⟩)⟩
      | some r =>
        obtain ⟨step, hstep⟩ := exists_yields_reconcile_of_unlogged policy read r hkeeps hunlogged
        exact ⟨_, (yields_advance_of_getElem? hr).mpr ⟨step, hstep, rfl⟩⟩
    exact ⟨q, yields_foldlM_range_succ.mpr ⟨p, l, hfirst, hlast⟩⟩

/-- Where the log cannot be written, an update answers only when it finds every error recorded. -/
theorem recorded_of_not_writable (hworking : o.compactOnly = false) (hupdating : o.updating = true)
    (hdiffer : FilesDiffer o results) (h : l.Shows live) (hnot : ¬ l.Writable)
    (hy : Yields (formatter o read results) l out l') :
    ∀ r ∈ results, ∀ key, (errorKeys o r).contains key = true → live.contains key = true := by
  obtain ⟨format, policy, p, -, hfiles, rfl⟩ := (yields_formatter_iff hworking).mp hy
  have hunlogged : l'.files.isFile l'.storagePath = false := by
    rw [← Bool.not_eq_true]
    intro hlogged
    have hwritable := (untouched_or_remembers hfiles).writable
    exact hnot (hwritable.mp (FileLedger.writable_of_isFile hlogged))
  obtain ⟨added, removed, ⟨entries, hbooks, hcount, -⟩, hadded, -⟩ := booked_files hfiles
  obtain rfl := hbooks.appends.eq_nil_of_unlogged hunlogged
  have hnone : p.tally.added = 0 := by
    rw [hadded, ← hcount]
    rfl
  have hrecorded := (recorded_files hupdating hdiffer h (Nat.le_refl _) hfiles hnone).2
  rwa [List.take_length] at hrecorded

/-- A run on the same results in another order, and with any reader, answers when a run does. -/
theorem exists_yields_formatter_perm (hworking : o.compactOnly = false) (hdiffer : FilesDiffer o results)
    (hdiffer' : FilesDiffer o results') (h : l.Shows live) (hperm : results'.Perm results)
    (hy : Yields (formatter o read results) l out l') (read' : FileLedger → String → Option String) :
    ∃ out' l'', Yields (formatter o read' results') l out' l'' := by
  obtain ⟨format, policy, p, hprepared, -, -⟩ := (yields_formatter_iff hworking).mp hy
  by_cases hwritable : l.Writable
  · apply (fails_formatter o read' results' l).exists_yields
    rintro e s (hprepare | ⟨hread, hcompact | hcache⟩ | ⟨-, hnot⟩)
    · cases hprepare.symm.trans hprepared
    · cases hcompact.symm.trans hworking
    · have hcurrent := h.current
      rw [FileLedger.currentLive, hcache, hread] at hcurrent
      cases hcurrent
    · exact hnot hwritable
  · have hunlogged : l.files.isFile l.storagePath = false := by
      rw [← Bool.not_eq_true]
      exact fun hlogged => hwritable (FileLedger.writable_of_isFile hlogged)
    obtain ⟨q, l'', hfiles⟩ : ∃ q l'', Yields ((List.range results'.length).foldlM (advance o policy read')
        { results := results' }) l q l'' := by
      cases hupdating : o.updating with
      | false =>
        obtain ⟨q, hfiles⟩ := exists_yields_files_of_unlogged policy read' results' hupdating hunlogged
          results'.length
        exact ⟨q, l, hfiles⟩
      | true =>
        -- nothing is live without a log, and what the first run would have written is recorded
        have hquiet : ∀ r ∈ results', Quiet o l live r := by
          intro r hr
          refine ⟨recorded_of_not_writable hworking hupdating hdiffer h hwritable hy r (hperm.mem_iff.mp hr), ?_⟩
          intro t ht
          rw [h.unlogged hunlogged] at ht
          cases ht
        obtain ⟨q, l'', hfiles, -⟩ :=
          quiet_files policy read' hupdating hdiffer' h hquiet (Nat.le_refl _)
        exact ⟨q, l'', hfiles⟩
    exact ⟨_, l'', (yields_formatter_iff hworking).mpr ⟨format, policy, q, hprepared, hfiles, rfl⟩⟩

/-! ## What a run leaves -/

/-- A run that reads the source files in one way throughout changes each result as the live todos at its start
say, counts the share of each file, and leaves the live todos that outlast its files and those that it has made
for them. -/
structure Described (o : RunOptions) (policy : DecayPolicy) (reader : String → Option String)
    (results : List LintResult) (l : FileLedger) (live : Batch) (out : RunOutcome) (after : Batch) : Prop where
  changed : out.results = results.map fun r => (heldAgainst o l (live.toList ++
    newTodos o policy l live (reader r.sourcePath) r) r).settle
  flagged : out.errored = LintResult.anyErrored out.results
  counted : out.tally = .total (results.map fun r => share o policy l live (reader r.sourcePath) r)
  left : after.toList = live.toList.filter (fun t => results.all (outlasts o l · t)) ++
    results.flatMap fun r => (newTodos o policy l live (reader r.sourcePath) r).filter
      fun t => !(o.cleaning && l.isExpired t)

/-- Where the places do not count, the values are changed one by one. -/
theorem mapIdx_eq_map {α β : Type} {f : Nat → α → β} {g : α → β} (h : ∀ i x, f i x = g x) (xs : List α) :
    xs.mapIdx f = xs.map g := by
  apply List.ext_getElem?
  intro i
  rw [List.getElem?_mapIdx, List.getElem?_map]
  exact congrArg (Option.map · _) (funext (h i))

/-- A run on different files leaves this. -/
theorem described_formatter (hworking : o.compactOnly = false) (h : l.Shows live)
    (hapart : FilesApart o results live) {format : Option ReportFormat}
    (hprepared : prepare o l = .ok (format, policy))
    (hy : Yields (formatter o (fun _ => reader) results) l out l') :
    ∃ after, l'.currentLive = .ok after ∧ Described o policy reader results l live out after := by
  obtain ⟨format', policy', p, hprepared', hfiles, rfl⟩ := (yields_formatter_iff hworking).mp hy
  obtain ⟨rfl, rfl⟩ := Prod.mk.inj (Except.ok.inj (hprepared.symm.trans hprepared'))
  obtain ⟨-, ⟨after, hshows, hlist⟩, hresults⟩ := shows_files h hapart (Nat.le_refl _) hfiles
  refine ⟨after, hshows.current, ⟨?_, rfl, ?_, ?_⟩⟩
  · show LintResult.settleAll p.results = _
    rw [hresults, resultsAfterFirst, List.take_length, List.drop_length, List.append_nil,
      LintResult.settleAll, map_mapIdx]
    apply mapIdx_eq_map
    exact fun _ _ => rfl
  · show p.tally = _
    rw [tally_files h hapart (Nat.le_refl _) hfiles, List.take_length]
    apply congrArg Tally.total
    apply mapIdx_eq_map
    exact fun _ _ => rfl
  · rw [hlist, liveAfterFirst, addedByFirst, List.take_length, List.flatMap_def]
    apply congrArg (_ ++ List.flatten ·)
    apply mapIdx_eq_map
    exact fun _ _ => rfl

/-! ## The order does not matter -/

/-- Two ledgers that a third has become have the same live todos: either both are still the third, or they have
those that are left of the old ones, in their order, and behind them the same new ones, in any order. -/
def LeavesAlike (l l' l'' : FileLedger) : Prop :=
  (l' = l ∧ l'' = l) ∨ ∃ live after after' kept new new', l.currentLive = .ok live ∧
    l'.currentLive = .ok after ∧ l''.currentLive = .ok after' ∧
      after.toList = kept ++ new ∧ after'.toList = kept ++ new' ∧
        kept.Sublist live.toList ∧ (∀ t ∈ new, live.contains t.key = false) ∧ new'.Perm new

/-- Results in another order are for different files as well. -/
theorem FilesDiffer.perm (h : FilesDiffer o results) (hperm : results'.Perm results) :
    FilesDiffer o results' where
  paths r hr := h.paths r (hperm.mem_iff.mp hr)
  nodup_paths := (hperm.map _).nodup_iff.mpr h.nodup_paths

/-- Keys tell todos apart whatever the order of the results. -/
theorem FilesApart.perm (h : FilesApart o results live) (hperm : results'.Perm results) :
    FilesApart o results' live where
  paths r hr := h.paths r (hperm.mem_iff.mp hr)
  nodup_paths := (hperm.map _).nodup_iff.mpr h.nodup_paths
  distinguishable := by
    have hsame := (hperm.flatMap_right (errorsOf o)).append_left live.toList
    exact fun t ht u hu => h.distinguishable t (hsame.mem_iff.mp ht) u (hsame.mem_iff.mp hu)

/-- On results for different files, in another order, a run answers when it does in the first: each result
changes in the same way, the run is flagged and counts as in the first, and the same todos are live
afterwards. -/
theorem formatter_perm (hworking : o.compactOnly = false) (hdiffer : FilesDiffer o results)
    (hdistinguishable : ∀ live, l.currentLive = .ok live →
      Todo.Distinguishable (live.toList ++ results.flatMap (errorsOf o)))
    (hunlogged : l.files.isFile l.storagePath = false → ∀ b ∈ l.cache, b.toList = [])
    (hperm : results'.Perm results) (hy : Yields (formatter o (fun _ => reader) results) l out l') :
    ∃ out' l'', Yields (formatter o (fun _ => reader) results') l out' l'' ∧
      (∃ change : LintResult → LintResult,
        out.results = results.map change ∧ out'.results = results'.map change) ∧
      out'.errored = out.errored ∧ out'.tally = out.tally ∧ LeavesAlike l l' l'' := by
  obtain ⟨format, policy, p, hprepared, hfiles, hout⟩ := (yields_formatter_iff hworking).mp hy
  rcases results with _ | ⟨first, rest⟩
  · -- without files nothing is done, and the live todos need not even be read
    obtain rfl := hperm.eq_nil
    obtain ⟨rfl, rfl⟩ := yields_pure.mp hfiles
    have hnone : out.results = [] := by
      rw [hout]
      rfl
    exact ⟨out, _, hy, ⟨id, hnone, hnone⟩, rfl, rfl, .inl ⟨rfl, rfl⟩⟩
  · obtain ⟨live, hcurrent⟩ := exists_currentLive hworking hdiffer.paths List.mem_cons_self hy
    have hshows := shows_of_unlogged hcurrent hunlogged
    have hapart : FilesApart o (first :: rest) live :=
      ⟨hdiffer.paths, hdiffer.nodup_paths, hdistinguishable live hcurrent⟩
    obtain ⟨out', l'', hy'⟩ := exists_yields_formatter_perm hworking hdiffer (hdiffer.perm hperm) hshows hperm
      hy fun _ => reader
    obtain ⟨after, hafter, hdescribed⟩ := described_formatter hworking hshows hapart hprepared hy
    obtain ⟨after', hafter', hdescribed'⟩ :=
      described_formatter hworking hshows (hapart.perm hperm) hprepared hy'
    refine ⟨out', l'', hy', ⟨_, hdescribed.changed, hdescribed'.changed⟩, ?_, ?_, .inr ?_⟩
    · rw [hdescribed.flagged, hdescribed'.flagged, hdescribed.changed, hdescribed'.changed]
      exact (hperm.map _).any_eq
    · rw [hdescribed.counted, hdescribed'.counted]
      exact Tally.total_perm (hperm.map _)
    · refine ⟨live, after, after', _, _, _, hcurrent, hafter, hafter', hdescribed.left, ?_,
        List.filter_sublist, ?_, hperm.flatMap_right _⟩
      · rw [hdescribed'.left]
        congr 2
        funext t
        exact hperm.all_eq
      · intro t ht
        obtain ⟨r, -, hnew⟩ := List.mem_flatMap.mp ht
        exact contains_of_mem_newTodos (List.mem_filter.mp hnew).1

/-- A result for another file with the same error. -/
def exampleSecond : LintResult :=
  { exampleResult with source := some "/repo/b.css" }

/-- The two results are for different files. -/
theorem filesDiffer_exampleSecond : FilesDiffer exampleRenew [exampleResult, exampleSecond] :=
  ⟨by decide +kernel, by decide +kernel⟩

/-- An update on a directory without any file counts the same in both orders, and leaves the same todos. -/
theorem formatter_perm_of_two :
    ∃ out l' out' l'', Yields (formatter exampleRenew (fun _ _ => none) [exampleResult, exampleSecond])
        (FileLedger.openIn noFiles "" FileLedger.exampleDay) out l' ∧
      Yields (formatter exampleRenew (fun _ _ => none) [exampleSecond, exampleResult])
        (FileLedger.openIn noFiles "" FileLedger.exampleDay) out' l'' ∧
      out'.tally = out.tally ∧ LeavesAlike (FileLedger.openIn noFiles "" FileLedger.exampleDay) l' l'' := by
  obtain ⟨out, l', hy⟩ := exists_yields_of_isOk
    (x := formatter exampleRenew (fun _ _ => none) [exampleResult, exampleSecond])
    (s := FileLedger.openIn noFiles "" FileLedger.exampleDay) (by decide +kernel)
  have hdistinguishable : ∀ live, (FileLedger.openIn noFiles "" FileLedger.exampleDay).currentLive = .ok live →
      Todo.Distinguishable (live.toList ++ [exampleResult, exampleSecond].flatMap (errorsOf exampleRenew)) := by
    intro live hlive
    obtain rfl : Batch.empty = live := Except.ok.inj hlive
    decide +kernel
  obtain ⟨out', l'', hy', -, -, htally, halike⟩ := formatter_perm
    (l := FileLedger.openIn noFiles "" FileLedger.exampleDay) rfl filesDiffer_exampleSecond hdistinguishable
    (fun _ => nofun) (List.Perm.swap exampleResult exampleSecond []) hy
  exact ⟨out, l', out', l'', hy, hy', htally, halike⟩

/-- A ledger that remembers a todo whose log is gone goes by it only once another file has made a log: an update
leaves the error of the todo when its file comes first, and not when it comes last. -/
theorem formatter_perm_of_lost :
    exampleRenew.compactOnly = false ∧ FilesDiffer exampleRenew [exampleResult, exampleSecond] ∧
      (∀ live, exampleLost.currentLive = .ok live →
        Todo.Distinguishable (live.toList ++ [exampleResult, exampleSecond].flatMap (errorsOf exampleRenew))) ∧
      [exampleSecond, exampleResult].Perm [exampleResult, exampleSecond] ∧
      ∃ out l' out' l'', Yields (formatter exampleRenew (fun _ _ => none) [exampleResult, exampleSecond])
          exampleLost out l' ∧
        Yields (formatter exampleRenew (fun _ _ => none) [exampleSecond, exampleResult]) exampleLost out' l'' ∧
        out.errored = true ∧ out.tally.demoted = 1 ∧ out'.errored = false ∧ out'.tally.demoted = 2 := by
  refine ⟨rfl, filesDiffer_exampleSecond, ?_, List.Perm.swap _ _ [], ?_⟩
  · intro live hlive
    obtain rfl : exampleLive = live := Except.ok.inj hlive
    rw [toList_exampleLive]
    decide +kernel
  · obtain ⟨out, l', hy, hseen⟩ := exists_yields_of_toOption (b := (true, 1))
      (f := fun out : RunOutcome => (out.errored, out.tally.demoted))
      (x := formatter exampleRenew (fun _ _ => none) [exampleResult, exampleSecond]) (s := exampleLost)
      (by decide +kernel)
    obtain ⟨out', l'', hy', hseen'⟩ := exists_yields_of_toOption (b := (false, 2))
      (f := fun out : RunOutcome => (out.errored, out.tally.demoted))
      (x := formatter exampleRenew (fun _ _ => none) [exampleSecond, exampleResult]) (s := exampleLost)
      (by decide +kernel)
    obtain ⟨herrored, hdemoted⟩ := Prod.mk.inj hseen
    obtain ⟨herrored', hdemoted'⟩ := Prod.mk.inj hseen'
    exact ⟨out, l', out', l'', hy, hy', herrored, hdemoted, herrored', hdemoted'⟩

end LintDebt.Run
