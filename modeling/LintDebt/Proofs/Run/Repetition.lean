import LintDebt.Proofs.Config
import LintDebt.Proofs.Run.Schedule
import LintDebt.Proofs.Run.Update

/-!
# The same update twice

When an update on different files has got every error a todo, the same update finds nothing to do: the todos
are there, none of them would be taken out, and they give the same severities.  When it has not, because it
has taken an expired todo out again, the same update writes that todo anew.

* `LintDebt.Run.Quiet`: there is nothing to do about a file.
* `LintDebt.Run.Quiet.yields_reconcile`, `LintDebt.Run.quiet_files`: then nothing is changed.
* `LintDebt.Run.recorded_of_reconcile`, `LintDebt.Run.recorded_files`: an update that adds nothing has found
  every error recorded.
* `LintDebt.Run.Updated.repeats`: when every error is recorded, the same update has nothing to do.
* `LintDebt.Run.recorded_of_noneExpires`: every error is recorded unless a todo expires.
* `LintDebt.Run.formatter_repeats`: the same update twice.
* `LintDebt.Run.formatter_renews_expired`: an update that has something to do again.
-/

namespace LintDebt.Run

open FileLedger (reproduced abandoned)

variable {o : RunOptions} {policy : DecayPolicy} {contents : Option String} {r : LintResult}
  {read : FileLedger → String → Option String} {results : List LintResult} {l l' m : FileLedger}
  {live : Batch} {key : String} {step : FileStep} {p : Progress} {n : Nat} {out : RunOutcome}

/-! ## Nothing to do -/

/-- There is nothing to do about a file: the key of every error is live, and the work on the file would take
out no live todo. -/
structure Quiet (o : RunOptions) (l : FileLedger) (live : Batch) (r : LintResult) : Prop where
  recorded : ∀ key, (errorKeys o r).contains key = true → live.contains key = true
  kept : ∀ t ∈ live.toList, drops o l r t = false

section Quiet

variable (h : Quiet o l live r)
include h

/-- Then no candidate is new. -/
theorem Quiet.fresh_eq_nil : FileLedger.fresh (candidatesOf o policy contents r) live = [] := by
  rw [FileLedger.fresh, List.filter_eq_nil_iff]
  intro c hc
  have hkey : (candidatesOf o policy contents r).contains c.key = true :=
    Batch.contains_key_of_mem hc
  rw [contains_candidatesOf] at hkey
  simp [h.recorded c.key hkey]

/-- Then an update finds no todo abandoned. -/
theorem Quiet.abandoned_eq_nil (hupdating : o.updating = true) :
    abandoned (candidatesOf o policy contents r) (scopeOf o policy r) live.toList = [] := by
  rw [abandoned_eq, List.filter_eq_nil_iff]
  intro t ht htest
  simp only [Bool.and_eq_true, Bool.not_eq_true'] at htest
  obtain ⟨⟨hcovers, hengine⟩, hkey⟩ := htest
  have hkept := h.kept t ht
  rw [drops, hcovers, hkey, hengine, hupdating] at hkept
  contradiction

/-- Then no reproduced todo has expired, if todos are cleaned up. -/
theorem Quiet.expired_eq_nil (hcleaning : o.cleaning = true) :
    (reproduced (candidatesOf o policy contents r) (scopeOf o policy r) live.toList).filter
      l.isExpired = [] := by
  rw [List.filter_eq_nil_iff]
  intro u hu hexp
  obtain ⟨t, ht, hcovers, hmatch⟩ := FileLedger.mem_reproduced.mp hu
  rw [covers_scopeOf] at hcovers
  have hkey := FileLedger.contains_of_matched hmatch
  rw [contains_candidatesOf] at hkey
  obtain ⟨c, -, rfl⟩ := Option.map_eq_some_iff.mp hmatch
  have hexpired : l.isExpired t = true := hexp
  have hkept := h.kept t ht
  rw [drops, hcovers, hkey, if_pos rfl, hcleaning, hexpired] at hkept
  contradiction

/-- Then the errors are written without any change. -/
theorem Quiet.yields_writeIf (policy : DecayPolicy) (contents : Option String)
    (hupdating : o.updating = true) (hcurrent : l.currentLive = .ok live) :
    Yields (writeIf o (candidatesOf o policy contents r) (scopeOf o policy r)) l ⟨0, 0⟩
      (l.remembering live) := by
  have hstale : FileLedger.stale (candidatesOf o policy contents r) (scopeOf o policy r) live = [] := by
    have habandoned : abandoned (candidatesOf o policy contents r) (scopeOf o policy r) live.toList = [] :=
      h.abandoned_eq_nil hupdating
    rw [abandoned, List.filter_filter] at habandoned
    rw [FileLedger.stale, ← habandoned]
    apply List.filter_congr
    intro t _
    rw [Bool.and_assoc, Bool.and_comm]
  unfold writeIf
  rw [if_pos hupdating]
  apply yields_onLedger.mpr
  refine FileLedger.yields_write.mpr ⟨live, hcurrent, ?_, ?_⟩
  · rw [FileLedger.writeEntries, FileLedger.datedFresh, h.fresh_eq_nil, hstale]
    exact FileLedger.yields_append.mpr rfl
  · rw [h.fresh_eq_nil, hstale]
    rfl

/-- Then what follows the writing takes nothing out. -/
theorem Quiet.yields_settle (policy : DecayPolicy) (contents : Option String)
    (hupdating : o.updating = true) :
    ∃ step, Yields (settle o (candidatesOf o policy contents r) (scopeOf o policy r))
      (l.remembering live) step (l.remembering live) ∧ step.removed = 0 := by
  have hcurrent : (l.remembering live).currentLive = .ok live := rfl
  obtain ⟨batches, hsort⟩ := FileLedger.exists_yields_sortOut hcurrent
    (candidatesOf o policy contents r) (scopeOf o policy r)
  obtain ⟨-, hstable, hexpired, hremove⟩ := FileLedger.toList_sortOut hcurrent hsort
  have hunexpired : ∀ t ∈ batches.stable.toList, (l.remembering live).isExpired t = false := by
    intro t ht
    rw [hstable] at ht
    simpa using (List.mem_filter.mp ht).2
  have hnone (hcleaning : o.cleaning = true) : (batches.remove.union batches.expired).toList = [] := by
    have hunexpired : batches.expired.toList = [] := hexpired.trans (h.expired_eq_nil hcleaning)
    rw [Batch.toList_union, hremove, hunexpired, h.abandoned_eq_nil hupdating]
    rfl
  have hclear : Yields (if o.cleaning then clear (batches.remove.union batches.expired) else pure ())
      (l.remembering live) () (l.remembering live) := by
    split
    · next hcleaning =>
      unfold clear
      rw [if_pos (by rw [Batch.isEmpty_eq, hnone hcleaning]; rfl)]
      exact yields_pure.mpr ⟨rfl, rfl⟩
    · exact yields_pure.mpr ⟨rfl, rfl⟩
  refine ⟨_, Run.yields_settle.mpr
    ⟨batches, _, (), _, hsort, hclear, demotions_eq hunexpired _, rfl⟩, ?_⟩
  split
  · next hcleaning =>
    show (batches.remove.union batches.expired).size = 0
    rw [Batch.size_eq, hnone hcleaning]
    rfl
  · rfl

/-- Then the work on the file is done without any change. -/
theorem Quiet.yields_reconcile (policy : DecayPolicy) (read : FileLedger → String → Option String)
    (hpath : r.path o.baseDir ≠ "") (hupdating : o.updating = true)
    (hcurrent : l.currentLive = .ok live) :
    ∃ step, Yields (reconcile o policy read r) l step (l.remembering live) ∧ step.added = 0 ∧
      step.removed = 0 := by
  have hwrite := h.yields_writeIf policy (read l r.sourcePath) hupdating hcurrent
  obtain ⟨settled, hsettle, hremoved⟩ := h.yields_settle policy (read l r.sourcePath) hupdating
  obtain ⟨step, hsettleIf, hadded, hremoved⟩ : ∃ step, Yields (settleIf o
      (candidatesOf o policy (read l r.sourcePath) r) (scopeOf o policy r)
      (Candidates.extract ⟨o.baseDir, o.engine, policy⟩ (read l) [r]).2 ⟨0, 0⟩) (l.remembering live) step
        (l.remembering live) ∧ step.added = 0 ∧ step.removed = 0 := by
    cases hlogged : Ledger.hasStorage (l.remembering live) with
    | false => exact ⟨_, yields_settleIf.mpr (.inl ⟨hlogged, rfl, rfl⟩), rfl, rfl⟩
    | true =>
      refine ⟨_, yields_settleIf.mpr (.inr ⟨hlogged, settled, hsettle, rfl⟩), rfl, ?_⟩
      show 0 + settled.removed = 0
      rw [hremoved]
  exact ⟨step, (Run.yields_reconcile (LintResult.sourcePath_isEmpty hpath)).mpr
    ⟨_, _, hwrite, hsettleIf⟩, hadded, hremoved⟩

end Quiet

/-- An update about whose files there is nothing to do is done without any change. -/
theorem quiet_files (policy : DecayPolicy) (read : FileLedger → String → Option String)
    (hupdating : o.updating = true) (hdiffer : FilesDiffer o results) (h : l.Shows live)
    (hquiet : ∀ r ∈ results, Quiet o l live r) (hn : n ≤ results.length) :
    ∃ p l', Yields ((List.range n).foldlM (advance o policy read) { results }) l p l' ∧
      l'.remembering live = l.remembering live ∧ l'.currentLive = .ok live ∧
        p.tally.added = 0 ∧ p.tally.removed = 0 := by
  induction n with
  | zero => exact ⟨_, l, yields_pure.mpr ⟨rfl, rfl⟩, rfl, h.current, rfl, rfl⟩
  | succ n ih =>
    obtain ⟨q, l₁, hfirst, hsame, hcurrent, hadded, hremoved⟩ := ih (Nat.le_of_succ_le hn)
    obtain ⟨_, hupdated⟩ := updated_files hupdating hdiffer h (Nat.le_of_succ_le hn) hfirst
    have hmem : results[n] ∈ results := List.getElem_mem hn
    have htoday : (l₁.remembering live).today = (l.remembering live).today := by rw [hsame]
    replace htoday : l₁.today = l.today := htoday
    have hquiet₁ : Quiet o l₁ live results[n] := by
      refine ⟨(hquiet _ hmem).recorded, ?_⟩
      rw [drops_congr htoday]
      exact (hquiet _ hmem).kept
    obtain ⟨step, hstep, hadded', hremoved'⟩ :=
      hquiet₁.yields_reconcile policy read (hdiffer.paths _ hmem) hupdating hcurrent
    have hlast := (hupdated.yields_advance hn).mpr ⟨step, hstep, rfl⟩
    refine ⟨q.add o step, l₁.remembering live, yields_foldlM_range_succ.mpr ⟨q, l₁, hfirst, hlast⟩,
      hsame, rfl, ?_, ?_⟩
    · show q.tally.added + step.added = 0
      rw [hadded, hadded']
    · show q.tally.removed + step.removed = 0
      rw [hremoved, hremoved']

/-! ## Something to do -/

/-- An update that adds nothing for a file has found every error of it recorded. -/
theorem recorded_of_reconcile (hsource : r.sourcePath.isEmpty = false) (hupdating : o.updating = true)
    (hcurrent : l.currentLive = .ok live) (hy : Yields (reconcile o policy read r) l step l')
    (hadded : step.added = 0) (hkey : (errorKeys o r).contains key = true) :
    live.contains key = true := by
  have hnone := List.eq_nil_of_length_eq_zero ((added_of_reconcile hsource hcurrent hy).symm.trans hadded)
  rw [newTodos, if_pos hupdating, List.map_eq_nil_iff, List.filter_eq_nil_iff] at hnone
  obtain ⟨d, place, hmem, rfl⟩ := exists_mem_firstErrors hkey
  have hold := hnone _ hmem
  rwa [Bool.not_eq_true', Bool.not_eq_false] at hold

/-- An update that adds nothing has found every error recorded. -/
theorem recorded_files (hupdating : o.updating = true) (hdiffer : FilesDiffer o results)
    (h : l.Shows live) (hn : n ≤ results.length)
    (hy : Yields ((List.range n).foldlM (advance o policy read) { results }) l p l')
    (hadded : p.tally.added = 0) :
    (∃ live', l'.Shows live' ∧ ∀ t ∈ live'.toList, live.contains t.key = true) ∧
      ∀ r ∈ results.take n, ∀ key, (errorKeys o r).contains key = true →
        live.contains key = true := by
  induction n generalizing p l' with
  | zero =>
    obtain ⟨-, rfl⟩ := yields_pure.mp hy
    exact ⟨⟨live, h, fun t ht => Batch.contains_key_of_mem ht⟩, nofun⟩
  | succ n ih =>
    obtain ⟨q, l₁, hfirst, hlast⟩ := yields_foldlM_range_succ.mp hy
    obtain ⟨_, hupdated⟩ := updated_files hupdating hdiffer h (Nat.le_of_succ_le hn) hfirst
    have hsource := LintResult.sourcePath_isEmpty (hdiffer.paths results[n] (List.getElem_mem hn))
    obtain ⟨step, hstep, rfl⟩ := (hupdated.yields_advance hn).mp hlast
    obtain ⟨hbefore, hnow⟩ := Nat.add_eq_zero_iff.mp hadded
    obtain ⟨⟨live₁, hshows, hold⟩, hrecorded⟩ := ih (Nat.le_of_succ_le hn) hfirst hbefore
    have hnext (key : String) (hkey : (errorKeys o results[n]).contains key = true) :
        live.contains key = true := by
      have hlive := recorded_of_reconcile hsource hupdating hshows.current hstep hnow hkey
      obtain ⟨t, ht, rfl⟩ := List.mem_map.mp (Batch.contains_iff.mp hlive)
      exact hold t ht
    obtain ⟨live', hshows', hworked⟩ := shows_worked hshows hsource hstep
    refine ⟨⟨live', hshows', ?_⟩, ?_⟩
    · intro t ht
      rw [hworked.left] at ht
      rcases List.mem_append.mp ht with hkept | hnew
      · exact hold t (List.mem_filter.mp hkept).1
      · exact hnext t.key (mem_newTodos (List.mem_filter.mp hnew).1).2
    · intro r hr key hkey
      rw [List.take_succ_eq_append_getElem hn, List.mem_append, List.mem_singleton] at hr
      rcases hr with hr | rfl
      · exact hrecorded r hr key hkey
      · exact hnext key hkey

/-! ## The same update twice -/

/-- Every error of a run has a live todo. -/
def Recorded (o : RunOptions) (results : List LintResult) (l : FileLedger) : Prop :=
  ∀ live, l.currentLive = .ok live → ∀ r ∈ results, ∀ key, (errorKeys o r).contains key = true →
    live.contains key = true

/-- When todos are cleaned up, no error of a run has a live todo that has expired, and none has a rule whose
new todos have expired at once. -/
structure NoneExpires (o : RunOptions) (results : List LintResult) (l : FileLedger) (live : Batch) :
    Prop where
  old : o.cleaning = true → ∀ r ∈ results, ∀ t ∈ live.toList,
    (errorKeys o r).contains t.key = true → l.isExpired t = false
  new : o.cleaning = true → ∀ policy, Config.load l.files l.baseDir o.engine o.overrides = .ok policy →
    ∀ r ∈ results, ∀ e ∈ errorsOf o r, live.contains e.key = false →
      ((policy.windowFor e.ruleId).getD {}).error ≠ some 0

/-- Two ledgers on the same files, on one day, with the same live todos. -/
structure SameView (l m : FileLedger) : Prop where
  files : m.files = l.files
  baseDir : m.baseDir = l.baseDir
  today : m.today = l.today
  currentLive : m.currentLive = l.currentLive

/-- A run answers the results that another has answered, adds and removes nothing, and leaves the files as they
are. -/
def Repeats (o : RunOptions) (read : FileLedger → String → Option String) (results : List LintResult)
    (out : RunOutcome) (l : FileLedger) : Prop :=
  ∃ again l', Yields (formatter o read results) l again l' ∧ again.tally.added = 0 ∧
    again.tally.removed = 0 ∧ l'.files = l.files ∧ again.results = out.results ∧
      again.errored = out.errored

/-- A ledger sees the same as itself. -/
theorem SameView.refl (l : FileLedger) : SameView l l :=
  ⟨rfl, rfl, rfl, rfl⟩

/-- A ledger that sees the same shows the same live todos. -/
theorem SameView.shows (h : SameView l m) (hshows : l.Shows live) : m.Shows live where
  current := h.currentLive.trans hshows.current
  unlogged hfile := by
    rw [h.files, FileLedger.storagePath_congr h.baseDir] at hfile
    exact hshows.unlogged hfile

/-- A ledger that remembers nothing without a log shows its live todos. -/
theorem shows_of_unlogged (hcurrent : l.currentLive = .ok live)
    (hunlogged : l.files.isFile l.storagePath = false → ∀ b ∈ l.cache, b.toList = []) :
    l.Shows live where
  current := hcurrent
  unlogged hfile := by
    unfold FileLedger.currentLive at hcurrent
    cases hcache : l.cache with
    | some b =>
      rw [hcache] at hcurrent
      obtain rfl := Except.ok.inj hcurrent
      exact hunlogged hfile b hcache
    | none =>
      rw [hcache, FileLedger.readEntries_of_isFile_eq_false hfile] at hcurrent
      obtain rfl := Except.ok.inj hcurrent
      rfl

/-- A run is prepared as the one before it was. -/
theorem prepare_again (hy : Yields (formatter o read results) l out l') (h : SameView l' m) :
    prepare o m = prepare o l := by
  obtain ⟨hdir, hfiles⟩ := (ends_formatter (FileLedger.invariant_sameBut l)
    ⟨rfl, .refl l.storagePath l.files⟩ o read results).of_yields hy
  exact prepare_of_sameBut (h.baseDir.trans hdir) (h.files ▸ hfiles) o

/-- When an update has recorded every error, the same update has nothing to do. -/
theorem Updated.repeats (h : Updated o results results.length l live p)
    (hworking : o.compactOnly = false) (hupdating : o.updating = true)
    (hdiffer : FilesDiffer o results) (hrecorded : Recorded o results l)
    (hview : SameView l m) {format : Option ReportFormat}
    (hprepared : prepare o m = .ok (format, policy)) :
    Repeats o read results (workedOutcome o format policy p) m := by
  have hshows : m.Shows live := hview.shows h.shows
  have hquiet : ∀ r ∈ results, Quiet o m live r := by
    intro r hr
    refine ⟨hrecorded live h.shows.current r hr, ?_⟩
    rw [drops_congr hview.today]
    exact h.kept r (by rwa [List.take_length])
  obtain ⟨q, m', hfiles, hsame, hcurrent, hadded, hremoved⟩ :=
    quiet_files policy read hupdating hdiffer hshows hquiet (Nat.le_refl _)
  obtain ⟨live', hupdated⟩ := updated_files hupdating hdiffer hshows (Nat.le_refl _) hfiles
  obtain rfl := Except.ok.inj (hupdated.shows.current.symm.trans hcurrent)
  have htoday : (m'.remembering live').today = (m.remembering live').today := by rw [hsame]
  have hleft : (m'.remembering live').files = (m.remembering live').files := by rw [hsame]
  have hresults : q.results = p.results := by
    rw [hupdated.judges, h.judges]
    exact congrArg (· ++ _) (List.map_congr_left fun r _ => judged_congr (htoday.trans hview.today) rfl)
  refine ⟨workedOutcome o format policy q, m',
    (yields_formatter_iff hworking).mpr ⟨format, policy, q, hprepared, hfiles, rfl⟩, hadded, hremoved,
    hleft, ?_, ?_⟩
  · rw [workedOutcome, workedOutcome, hresults]
  · rw [workedOutcome, workedOutcome, hresults]

/-- An update on different files records every error, when keys tell todos apart and none expires that would be
taken out. -/
theorem recorded_of_noneExpires (hworking : o.compactOnly = false) (hupdating : o.updating = true)
    (h : l.Shows live) (hapart : FilesApart o results live) (hnone : NoneExpires o results l live)
    (hy : Yields (formatter o read results) l out l') : Recorded o results l' := by
  have hlive {x : Todo} (hx : ∃ after, l'.Shows after ∧ x ∈ after.toList) (live' : Batch)
      (hlive' : l'.currentLive = .ok live') : live'.contains x.key = true := by
    obtain ⟨after, hshows, hmem⟩ := hx
    obtain rfl := Except.ok.inj (hshows.current.symm.trans hlive')
    exact Batch.contains_key_of_mem hmem
  intro live' hlive' r hr key hkey
  by_cases hold : live.contains key = true
  · obtain ⟨x, hx, rfl⟩ := List.mem_map.mp (Batch.contains_iff.mp hold)
    exact hlive (shows_of_mem_live hworking h hapart hy hx hr hkey
      fun hcleaning => hnone.old hcleaning r hr x hx hkey) live' hlive'
  · obtain ⟨e, he, rfl⟩ := List.mem_map.mp (List.contains_iff_mem.mp hkey)
    replace hold : live.contains e.key = false := Bool.eq_false_iff.mpr hold
    obtain ⟨policy, x, hload, hsame, -, -, herror, -, hkept⟩ :=
      shows_of_new hworking hupdating h hapart hy hr he hold
    rw [← hsame]
    refine hlive (hkept fun hcleaning => ?_) live' hlive'
    have hlater := hnone.new hcleaning policy hload r hr e he hold
    rw [FileLedger.isExpired, FileLedger.hasCome_eq_reached, herror]
    cases hdays : ((policy.windowFor e.ruleId).getD {}).error with
    | none => rfl
    | some days =>
      rw [reached_deadline, decide_eq_false_iff_not]
      rw [hdays] at hlater
      have hpos : days.toNat ≠ 0 := fun hzero =>
        hlater (congrArg some (UInt32.toNat_inj.mp hzero))
      omega

/-- The same update twice, on different files: the second has nothing to do exactly when the first has
recorded every error.  That it has when keys tell todos apart and, if todos are cleaned up, none expires. -/
theorem formatter_repeats (hworking : o.compactOnly = false) (hupdating : o.updating = true)
    (hdiffer : FilesDiffer o results)
    (hunlogged : l.files.isFile l.storagePath = false → ∀ b ∈ l.cache, b.toList = [])
    (hy : Yields (formatter o read results) l out l') :
    (∀ m read', SameView l' m →
      (Recorded o results l' → Repeats o read' results out m) ∧
        ∀ again m', Yields (formatter o read' results) m again m' → again.tally.added = 0 →
          Recorded o results l') ∧
      ∀ live, l.currentLive = .ok live →
        Todo.Distinguishable (live.toList ++ results.flatMap (errorsOf o)) →
          NoneExpires o results l live → Recorded o results l' := by
  obtain ⟨format, policy, p, hprepared, hfiles, rfl⟩ := (yields_formatter_iff hworking).mp hy
  constructor
  · intro m read' hview
    have hprepared' : prepare o m = .ok (format, policy) := (prepare_again hy hview).trans hprepared
    rcases results with _ | ⟨first, rest⟩
    · obtain ⟨rfl, -⟩ := yields_pure.mp hfiles
      have hagain : Yields (formatter o read' []) m (workedOutcome o format policy { results := [] }) m :=
        (yields_formatter_iff hworking).mpr ⟨format, policy, _, hprepared',
          yields_pure.mpr ⟨rfl, rfl⟩, rfl⟩
      exact ⟨fun _ => ⟨_, m, hagain, rfl, rfl, rfl, rfl, rfl⟩, fun _ _ _ _ => nofun⟩
    · obtain ⟨live, hcurrent⟩ := exists_currentLive hworking hdiffer.paths List.mem_cons_self hy
      have hshows := shows_of_unlogged hcurrent hunlogged
      obtain ⟨live', hupdated⟩ := updated_files hupdating hdiffer hshows (Nat.le_refl _) hfiles
      constructor
      · intro hrecorded
        exact hupdated.repeats hworking hupdating hdiffer hrecorded hview hprepared'
      · intro again m' hagain hadded after hafter r hr
        obtain ⟨_, _, q, -, hfiles', rfl⟩ := (yields_formatter_iff hworking).mp hagain
        obtain rfl := Except.ok.inj (hupdated.shows.current.symm.trans hafter)
        obtain ⟨-, hfound⟩ := recorded_files hupdating hdiffer (hview.shows hupdated.shows)
          (Nat.le_refl _) hfiles' hadded
        rw [List.take_length] at hfound
        exact hfound r hr
  · intro live hcurrent hapart hnone
    have hshows := shows_of_unlogged hcurrent hunlogged
    exact recorded_of_noneExpires hworking hupdating hshows
      ⟨hdiffer.paths, hdiffer.nodup_paths, hapart⟩ hnone hy

/-- A run that renews the todos of its errors. -/
def exampleRenew : RunOptions where
  baseDir := "/repo"
  updating := true
  presentation := { cwd := "/repo" }

/-- On the example log, whose todo has no dates, an update does the same twice. -/
theorem formatter_repeats_of_example :
    ∃ out l', Yields (formatter exampleRenew exampleRead [exampleResult])
        (FileLedger.openIn FileLedger.exampleFiles "" FileLedger.exampleDay) out l' ∧
      Repeats exampleRenew exampleRead [exampleResult] out l' := by
  obtain ⟨out, l', hy⟩ : ∃ out l', Yields (formatter exampleRenew exampleRead [exampleResult])
      (FileLedger.openIn FileLedger.exampleFiles "" FileLedger.exampleDay) out l' :=
    exists_yields_of_remembering (fun _ _ => rfl) rfl (reads_example.shows nofun).current
      (by decide +kernel)
  have hapart : FilesApart exampleRenew [exampleResult] exampleLive :=
    filesApart_exampleResult rfl rfl
  have hnone : NoneExpires exampleRenew [exampleResult]
      (.openIn FileLedger.exampleFiles "" FileLedger.exampleDay) exampleLive := by
    refine ⟨?_, ?_⟩
    · intro _ _ _ t ht _
      rw [toList_exampleLive, List.mem_singleton] at ht
      rw [ht]
      rfl
    · -- the one error has a live todo
      intro _ policy _ r hr e he hnew
      rw [List.mem_singleton.mp hr, errorsOf_example rfl rfl, List.mem_singleton] at he
      have hkey : e.key = FileLedger.exampleTodo.stored.key :=
        Todo.SameIdentity.key_eq (he ▸ ⟨rfl, rfl, rfl, rfl⟩)
      have hlive : exampleLive.contains e.key = true := by
        rw [hkey, Batch.contains_iff, toList_exampleLive]
        exact List.mem_singleton_self _
      rw [hlive] at hnew
      cases hnew
  obtain ⟨hagain, hrecorded⟩ :=
    formatter_repeats (l := .openIn FileLedger.exampleFiles "" FileLedger.exampleDay) rfl rfl
      ⟨hapart.paths, hapart.nodup_paths⟩ (fun _ => nofun) hy
  refine ⟨out, l', hy, (hagain l' exampleRead (.refl l')).1 ?_⟩
  exact hrecorded exampleLive (reads_example.shows nofun).current hapart.distinguishable hnone

/-- A ledger whose log holds the example todo with an error date that has come. -/
def exampleExpired : FileLedger :=
  .openIn { root := .directory [(".lint-todo", .file (.text (LogEntry.encode
    [⟨.add, { FileLedger.exampleTodo with errorDate := some FileLedger.exampleDay }⟩])))] } ""
      FileLedger.exampleDay

/-- A ledger that remembers the example todo, though the log is gone. -/
def exampleLost : FileLedger where
  files := noFiles
  baseDir := ""
  today := FileLedger.exampleDay
  cache := some exampleLive

/-- What a run answers, and what the same run answers after it, when both do. -/
def outcomesTwice (o : RunOptions) (results : List LintResult) (l : FileLedger) :
    Option (RunOutcome × RunOutcome) :=
  match (formatter o exampleRead results).run.run l with
  | (.error _, _) => none
  | (.ok out, l') =>
    match (formatter o exampleRead results).run.run l' with
    | (.error _, _) => none
    | (.ok again, _) => some (out, again)

/-- What holds of the outcomes of a run and the same run after it is seen when they take place once the live
todos have been read. -/
theorem exists_yields_twice {α : Type} {f : RunOutcome × RunOutcome → α} {a : α}
    (hcompact : o.compactOnly = false) (hread : FileLedger.HasRead l m)
    (h : (outcomesTwice o results m).map f = some a) :
    ∃ out l' again l'', Yields (formatter o exampleRead results) l out l' ∧
      Yields (formatter o exampleRead results) l' again l'' ∧ f (out, again) = a := by
  unfold outcomesTwice at h
  rcases hfirst : (formatter o exampleRead results).run.run m with ⟨e | out, m'⟩
  · rw [hfirst] at h
    cases h
  · rw [hfirst] at h
    dsimp only at h
    obtain ⟨l', hy, hread'⟩ := exists_yields_of_hasRead (fun _ _ => rfl) hcompact hread hfirst
    rcases hsecond : (formatter o exampleRead results).run.run m' with ⟨e | again, m''⟩
    · rw [hsecond] at h
      cases h
    · rw [hsecond] at h
      obtain ⟨l'', hagain, -⟩ := exists_yields_of_hasRead (fun _ _ => rfl) hcompact hread' hsecond
      exact ⟨out, l', again, l'', hy, hagain, Option.some.inj h⟩

/-- An update takes out an expired todo, whose error is left, and the same update writes the todo anew.  And an
update whose log is gone goes by the todos that it remembers only when it has written one; the same update goes
by them from its first file on. -/
theorem formatter_renews_expired :
    (∃ out l' again l'', Yields (formatter exampleRenew exampleRead [exampleResult]) exampleExpired out l' ∧
      Yields (formatter exampleRenew exampleRead [exampleResult]) l' again l'' ∧
        again.tally.added = 1 ∧ out.errored = true ∧ again.errored = false) ∧
      ∃ out l' again l'', Yields (formatter exampleRenew exampleRead
          [exampleResult, { exampleResult with source := some "/repo/b.css" }]) exampleLost out l' ∧
        Yields (formatter exampleRenew exampleRead
          [exampleResult, { exampleResult with source := some "/repo/b.css" }]) l' again l'' ∧
          out.errored = true ∧ again.errored = false := by
  constructor
  · have hreads : exampleExpired.Reads _ := FileLedger.reads_of_encode rfl
    obtain ⟨out, l', again, l'', hy, hagain, hseen⟩ := @exists_yields_twice exampleRenew [exampleResult]
      exampleExpired _ _ (fun (out, again) => (again.tally.added, out.errored, again.errored))
        (1, true, false) rfl (.inr ⟨_, (hreads.shows nofun).current, rfl⟩) (by decide +kernel)
    obtain ⟨hadded, hflags⟩ := Prod.mk.inj hseen
    obtain ⟨herrored, hagain'⟩ := Prod.mk.inj hflags
    exact ⟨out, l', again, l'', hy, hagain, hadded, herrored, hagain'⟩
  · obtain ⟨out, l', again, l'', hy, hagain, hseen⟩ := @exists_yields_twice exampleRenew
      [exampleResult, { exampleResult with source := some "/repo/b.css" }]
      exampleLost _ _ (fun (out, again) => (out.errored, again.errored)) (true, false) rfl (.inl rfl)
        (by decide +kernel)
    obtain ⟨herrored, hagain'⟩ := Prod.mk.inj hseen
    exact ⟨out, l', again, l'', hy, hagain, herrored, hagain'⟩

end LintDebt.Run
