import LintDebt.Proofs.Changes.Effect
import LintDebt.Proofs.Ledger.Sorting
import LintDebt.Proofs.Run.Confinement
import LintDebt.Proofs.Run.Update

/-!
# Writing and sorting agree

Once candidates are written, they reproduce every live todo of their scope and engine, and there is nothing
left to write.  So an update never reports a todo whose error is gone.

* `LintDebt.FileLedger.afterWrite`: the live todos after a write.
* `LintDebt.FileLedger.exists_mem_afterWrite`: each candidate is live after it.
* `LintDebt.FileLedger.writeEntries_afterWrite`: a second write appends nothing.
* `LintDebt.FileLedger.mem_keys_reproduced_afterWrite`: the reproduced todos are those with the keys of the
  candidates.
* `LintDebt.Run.Unreported`: what an update has left unreported after its first files.
* `LintDebt.FileLedger.write_agrees`: all of it.
-/

namespace LintDebt

namespace FileLedger

variable {l l' : FileLedger} {live candidates : Batch} {scope : Scope} {summary : WriteSummary}

/-! ## What is live after a write -/

/-- The live todos after a write. -/
def afterWrite (l : FileLedger) (candidates : Batch) (scope : Scope) (live : Batch) : Batch :=
  live.applyAll (l.writeEntries candidates scope live)

/-- A ledger that has written remembers what is live. -/
theorem cache_of_write (h : l.currentLive = .ok live) (hy : Yields (write candidates scope) l summary l') :
    l'.cache = some (l.afterWrite candidates scope live) :=
  (cached_write h hy).1

/-- The dates of a todo leave its file. -/
theorem filePath_date (policy : Option DecayPolicy) (t : Todo) :
    (l.date policy t).filePath = t.filePath := by
  unfold date
  split <;> rfl

/-- After a write there is a live todo with the key of each candidate: the one that was there before, or else
the candidate with its dates. -/
theorem exists_mem_afterWrite (l : FileLedger) (scope : Scope) (live : Batch) {c : Todo}
    (hc : c ∈ candidates.toList) :
    ∃ t ∈ (l.afterWrite candidates scope live).toList, t.key = c.key ∧
      (t ∈ live.toList ∨ t = (l.date (some scope.policy) c).stored) := by
  rw [afterWrite, toList_applyAll_writeEntries]
  have hin : candidates.contains c.key = true := Batch.contains_key_of_mem hc
  cases hlive : live.contains c.key with
  | true =>
    obtain ⟨t, ht, hkey⟩ := List.mem_map.mp (Batch.contains_iff.mp hlive)
    refine ⟨t, List.mem_append_left _ (List.mem_filter.mpr ⟨ht, ?_⟩), hkey, Or.inl ht⟩
    rw [hkey, hin, Bool.not_true, Bool.and_false, Bool.not_false]
  | false =>
    refine ⟨_, List.mem_append_right _ (List.mem_map_of_mem (List.mem_filter.mpr ⟨hc, ?_⟩)),
      key_date _ c, Or.inr rfl⟩
    rw [hlive, Bool.not_false]

/-- After a write there is nothing left to write, on any ledger with these live todos. -/
theorem writeEntries_afterWrite (l l' : FileLedger) (candidates : Batch) (scope : Scope) (live : Batch) :
    fresh candidates (l.afterWrite candidates scope live) = [] ∧
      stale candidates scope (l.afterWrite candidates scope live) = [] ∧
        l'.writeEntries candidates scope (l.afterWrite candidates scope live) = [] := by
  have hfresh : fresh candidates (l.afterWrite candidates scope live) = [] := by
    refine List.filter_eq_nil_iff.mpr fun c hc => ?_
    obtain ⟨t, ht, hkey, -⟩ := exists_mem_afterWrite l scope live hc
    rw [Bool.not_eq_true', Bool.not_eq_false, ← hkey]
    exact Batch.contains_key_of_mem ht
  have hstale : stale candidates scope (l.afterWrite candidates scope live) = [] := by
    rw [stale, ← abandoned_applyAll_writeEntries l candidates scope live, abandoned, List.filter_filter]
    refine List.filter_congr fun t _ => ?_
    rw [Bool.and_assoc, Bool.and_comm]
  refine ⟨hfresh, hstale, ?_⟩
  rw [writeEntries, datedFresh, hfresh, hstale]
  rfl

/-- A second write of the same candidates changes nothing. -/
theorem yields_write_again (h : l.currentLive = .ok live)
    (hy : Yields (write candidates scope) l summary l') :
    Yields (write candidates scope) l' ⟨0, 0⟩ l' := by
  have hcache := cache_of_write h hy
  have hcurrent : l'.currentLive = .ok (l.afterWrite candidates scope live) := by
    rw [currentLive, hcache]
  have hsame : l'.remembering (l.afterWrite candidates scope live) = l' := by
    rw [remembering, ← hcache]
  obtain ⟨hfresh, hstale, hentries⟩ := writeEntries_afterWrite l l' candidates scope live
  refine yields_write.mpr ⟨_, hcurrent, ?_, by rw [hfresh, hstale]; rfl⟩
  rw [hentries, hsame, yields_append, if_pos rfl]

/-! ## What is reproduced after a write -/

/-- The todos that candidates reproduce after they are written are those with their keys, when the scope covers
them and keys tell todos apart. -/
theorem mem_keys_reproduced_afterWrite (l : FileLedger)
    (hscope : ∀ c ∈ candidates.toList, scope.covers c = true)
    (hkeys : Todo.Distinguishable (live.toList ++ candidates.toList)) {key : String} :
    key ∈ (reproduced candidates scope (l.afterWrite candidates scope live).toList).map Todo.key ↔
      key ∈ candidates.keys := by
  rw [Batch.keys_eq]
  constructor
  · intro h
    obtain ⟨u, hu, rfl⟩ := List.mem_map.mp h
    obtain ⟨t, -, -, hmatch⟩ := mem_reproduced.mp hu
    rw [key_of_matched hmatch]
    exact Batch.contains_iff.mp (contains_of_matched hmatch)
  · intro h
    obtain ⟨c, hc, rfl⟩ := List.mem_map.mp h
    obtain ⟨t, ht, hkey, hfound⟩ := exists_mem_afterWrite l scope live hc
    have hfile : t.filePath = c.filePath := by
      rcases hfound with hold | rfl
      · exact (hkeys t (List.mem_append_left _ hold) c (List.mem_append_right _ hc) hkey).filePath
      · exact filePath_date _ c
    have hcovers : scope.covers t = true := by
      rw [← hscope c hc, Scope.covers, Scope.covers, hfile]
    obtain ⟨u, hmatch⟩ : ∃ u, matched candidates t = some u := by
      rw [← Option.ne_none_iff_exists', Ne, matched_eq_none_iff, Bool.not_eq_false, hkey]
      exact Batch.contains_key_of_mem hc
    rw [← hkey, ← key_of_matched hmatch]
    exact List.mem_map_of_mem (mem_reproduced.mpr ⟨t, ht, hcovers, hmatch⟩)

/-- A reproduced todo carries the origin and the window of the candidate with its key. -/
theorem exists_candidate_of_mem_reproduced {ts : List Todo} {u : Todo}
    (hu : u ∈ reproduced candidates scope ts) :
    ∃ c ∈ candidates.toList, c.key = u.key ∧ u.origin = c.origin ∧ u.decay = c.decay := by
  obtain ⟨t, -, -, hmatch⟩ := mem_reproduced.mp hu
  obtain ⟨c, hc, rfl⟩ := Option.map_eq_some_iff.mp hmatch
  obtain ⟨hmem, hkey⟩ := Batch.get?_eq_some_iff.mp hc
  exact ⟨c, hmem, hkey, rfl, rfl⟩

end FileLedger

/-! ## Updates -/

namespace Run

variable {o : RunOptions} {policy : DecayPolicy} {r : LintResult} {results : List LintResult}
  {read : FileLedger → String → Option String} {l l' : FileLedger} {step : FileStep}

/-- An update reports nothing about a file. -/
theorem violations_of_reconcile (hupdating : o.updating = true)
    (hy : Yields (reconcile o policy read r) l step l') : step.changes.violations = [] := by
  cases hsource : r.sourcePath.isEmpty with
  | true =>
    obtain ⟨rfl, -⟩ := yields_reconcile_of_sourceless hsource hy
    rfl
  | false =>
    obtain ⟨summary, l₁, hwrite, -⟩ := (yields_reconcile hsource).mp hy
    rw [writeIf, if_pos hupdating] at hwrite
    obtain ⟨live, hcurrent, -⟩ := FileLedger.yields_write.mp (yields_onLedger.mp hwrite)
    obtain ⟨live', -, ⟨-, -, hnone, -⟩ | ⟨-, hworked⟩⟩ := worked_reconcile hsource hcurrent hy
    · rw [hnone]
    · exact hworked.violations_eq_nil hupdating

/-- Progress without reports: none is counted, no result is added, and no diagnostic. -/
structure Unreported (results : List LintResult) (p : Progress) : Prop where
  tally : p.tally.violations = 0
  lengths : p.results.map (·.warnings.length) = results.map (·.warnings.length)

/-- A step without reports leaves progress without them. -/
theorem Unreported.add {p : Progress} (h : Unreported results p) (o : RunOptions)
    (hnone : step.changes.violations = []) : Unreported results (p.add o step) := by
  have happly : step.changes.apply o.baseDir p.results =
      step.changes.demotions.foldl (Applying.demote o.baseDir) { results := p.results } := by
    rw [Changes.apply, hnone, List.foldl_nil]
  constructor
  · show p.tally.violations + (step.changes.apply o.baseDir p.results).applied.violations = 0
    rw [h.tally, happly, Applying.applied_foldl_demote]
    rfl
  · show (step.changes.apply o.baseDir p.results).results.map _ = _
    rw [happly, Applying.results_foldl_demote, Applying.map_length_demoteAll, h.lengths]

/-- An update on the first files leaves progress without reports. -/
theorem unreported_files (hupdating : o.updating = true) {n : Nat} {p : Progress}
    (hy : Yields ((List.range n).foldlM (advance o policy read) { results }) l p l') :
    Unreported results p := by
  induction n generalizing p l' with
  | zero =>
    obtain ⟨rfl, -⟩ := yields_pure.mp hy
    exact ⟨rfl, rfl⟩
  | succ n ih =>
    obtain ⟨q, l₁, hfirst, hlast⟩ := yields_foldlM_range_succ.mp hy
    rcases yields_advance.mp hlast with ⟨-, rfl, -⟩ | ⟨r, step, -, hstep, rfl⟩
    · exact ih hfirst
    · exact (ih hfirst).add o (violations_of_reconcile hupdating hstep)

/-- An update reports nothing. -/
theorem violations_formatter (hupdating : o.updating = true) {out : RunOutcome}
    (hy : Yields (formatter o read results) l out l') :
    out.tally.violations = 0 ∧
      out.results.map (·.warnings.length) = results.map (·.warnings.length) := by
  cases hcompact : o.compactOnly with
  | true =>
    obtain ⟨-, -, -, -, rfl⟩ := (yields_formatter_compact hcompact).mp hy
    exact ⟨rfl, rfl⟩
  | false =>
    obtain ⟨policy, p, -, hfiles, hresults, htally⟩ := yields_formatter hcompact hy
    have hunreported := unreported_files hupdating hfiles
    rw [hresults, htally, LintResult.settleAll, List.map_map]
    exact ⟨hunreported.tally, hunreported.lengths⟩

end Run

/-! ## The agreement -/

namespace FileLedger

variable {l l' : FileLedger} {candidates : Batch} {scope : Scope} {summary : WriteSummary}

/-- When candidates of the engine and scope of a request are written, and keys tell them and the live todos
apart, then sorting by the same candidates finds no todo without its error: the reproduced todos, expired or
not, are exactly those with the keys of the candidates, and carry their origins and windows.  Writing them
again adds nothing, removes nothing and appends nothing.  In particular an update of any results, on any
ledger, counts no report and adds no diagnostic and no result. -/
theorem write_agrees
    (hscope : ∀ c ∈ candidates.toList, c.engine = scope.engine ∧ scope.covers c = true)
    (hkeys : ∀ live, l.currentLive = .ok live → Todo.Distinguishable (live.toList ++ candidates.toList))
    (hy : Yields (write candidates scope) l summary l') :
    (∃ batches, Yields (sortOut candidates scope) l' batches l' ∧
      batches.remove.toList = [] ∧ batches.stable.keys.Disjoint batches.expired.keys ∧
      (∀ key, key ∈ batches.stable.keys ++ batches.expired.keys ↔ key ∈ candidates.keys) ∧
      ∀ t ∈ batches.stable.toList ++ batches.expired.toList, ∃ c ∈ candidates.toList,
        c.key = t.key ∧ t.origin = c.origin ∧ t.decay = c.decay) ∧
    Yields (write candidates scope) l' ⟨0, 0⟩ l' ∧
    ∀ (o : RunOptions) (read : FileLedger → String → Option String) (results : List LintResult)
      (k k' : FileLedger) (out : RunOutcome), o.updating = true →
        Yields (Run.formatter o read results) k out k' →
          out.tally.violations = 0 ∧
            out.results.map (·.warnings.length) = results.map (·.warnings.length) := by
  obtain ⟨live, hlive, -⟩ := yields_write.mp hy
  have hcache := cache_of_write hlive hy
  have hcurrent : l'.currentLive = .ok (l.afterWrite candidates scope live) := by
    rw [currentLive, hcache]
  have hsame : l'.remembering (l.afterWrite candidates scope live) = l' := by
    rw [remembering, ← hcache]
  refine ⟨?_, yields_write_again hlive hy, fun o read results k k' out hupdating hrun =>
    Run.violations_formatter hupdating hrun⟩
  obtain ⟨batches, hsort⟩ := exists_yields_sortOut hcurrent candidates scope
  rw [hsame] at hsort
  obtain ⟨-, hstable, hexpired, hremove⟩ := toList_sortOut hcurrent hsort
  have hall (t : Todo) : t ∈ batches.stable.toList ++ batches.expired.toList ↔
      t ∈ reproduced candidates scope (l.afterWrite candidates scope live).toList := by
    rw [hstable, hexpired, List.mem_append, List.mem_filter, List.mem_filter, ← and_or_left]
    cases l'.isExpired t <;> simp
  refine ⟨batches, hsort, ?_, ?_, fun key => ?_, fun t ht => ?_⟩
  · rw [hremove]
    exact abandoned_applyAll_writeEntries l candidates scope live
  · exact fun key hs he => (disjoint_sortOut hcurrent hsort).1 he hs
  · rw [← mem_keys_reproduced_afterWrite l (fun c hc => (hscope c hc).2) (hkeys live hlive),
      Batch.keys_eq, Batch.keys_eq, ← List.map_append, List.mem_map, List.mem_map]
    simp only [hall]
  · exact exists_candidate_of_mem_reproduced ((hall t).mp ht)

/-- Candidates of which one is live already, and one is not. -/
def exampleCandidates : Batch :=
  .ofList [exampleTodo, { exampleTodo with ruleId := "size" }]

/-- The scope of the candidates. -/
def exampleScope : Scope := ⟨"stylelint", "a.css", {}⟩

/-- A write that adds one todo and takes another out leaves one for each candidate, and nothing to write. -/
theorem write_agrees_of_example :
    ∃ l' batches, Yields (write exampleCandidates exampleScope) exampleSorting ⟨1, 1⟩ l' ∧
      Yields (sortOut exampleCandidates exampleScope) l' batches l' ∧ batches.remove.toList = [] ∧
      (∀ key, key ∈ batches.stable.keys ++ batches.expired.keys ↔ key ∈ exampleCandidates.keys) ∧
      Yields (write exampleCandidates exampleScope) l' ⟨0, 0⟩ l' := by
  -- the write, the scope and the keys in one evaluation, which computes each key once
  have hfacts : ((write exampleCandidates exampleScope).run.run exampleSorting).1.toOption.map id =
        some ⟨1, 1⟩ ∧
      (∀ c ∈ exampleCandidates.toList, c.engine = exampleScope.engine ∧ exampleScope.covers c = true) ∧
      ∀ live ∈ exampleSorting.cache, Todo.Distinguishable (live.toList ++ exampleCandidates.toList) := by
    decide +kernel
  obtain ⟨hrun, hscope, hdistinct⟩ := hfacts
  obtain ⟨summary, l', hy, hsummary⟩ := exists_yields_of_toOption hrun
  obtain rfl : summary = ⟨1, 1⟩ := hsummary
  have hkeys (live : Batch) (hlive : exampleSorting.currentLive = .ok live) :
      Todo.Distinguishable (live.toList ++ exampleCandidates.toList) := by
    obtain rfl := Except.ok.inj hlive
    exact hdistinct _ rfl
  obtain ⟨⟨batches, hsort, hremove, -, hall, -⟩, hagain, -⟩ := write_agrees hscope hkeys hy
  exact ⟨l', batches, hy, hsort, hremove, hall, hagain⟩

end FileLedger

end LintDebt
