import LintDebt.Proofs.Run.Account
import LintDebt.Proofs.Run.Update

/-!
# The share of each file in the tally

When the files of a run are different and keys tell todos apart, what a run counts is the sum of what each file
has a part in, and this part is told from the live todos at the start of the run.

* `LintDebt.Tally.total`: tallies added up.
* `LintDebt.Run.share`: what the work on one file is counted as.
* `LintDebt.Run.FilesApart.askedOf_written`: the severities that are asked for when it is the turn of a file.
* `LintDebt.Run.FilesApart.tally_add`: the share of one more file.
* `LintDebt.Run.tally_files`: the tally of the first files.
-/

namespace LintDebt

namespace Tally

/-- Two tallies added up. -/
def plus (a b : Tally) : Tally where
  added := a.added + b.added
  removed := a.removed + b.removed
  demoted := a.demoted + b.demoted
  violations := a.violations + b.violations
  skipped := a.skipped + b.skipped

/-- Tallies added up. -/
def total (ts : List Tally) : Tally where
  added := (ts.map added).sum
  removed := (ts.map removed).sum
  demoted := (ts.map demoted).sum
  violations := (ts.map violations).sum
  skipped := (ts.map skipped).sum

variable {ts us : List Tally}

/-- One more tally is added. -/
theorem total_concat (ts : List Tally) (t : Tally) : total (ts ++ [t]) = (total ts).plus t := by
  simp [total, plus]

/-- In which order tallies are added up does not matter. -/
theorem total_perm (h : ts.Perm us) : total ts = total us := by
  unfold total
  rw [(h.map added).sum_nat, (h.map removed).sum_nat, (h.map demoted).sum_nat, (h.map violations).sum_nat,
    (h.map skipped).sum_nat]

end Tally

namespace Run

open Candidates (keyOf)

variable {o : RunOptions} {policy : DecayPolicy} {contents : Option String} {r : LintResult}
  {read : FileLedger → String → Option String} {results : List LintResult} {l l₁ l₂ l' : FileLedger}
  {live b : Batch} {ts : List Todo} {step : FileStep} {p : Progress} {n : Nat}

/-- What the work on one file is counted as: the todos that are made for it, those that it takes out, the
severities that are asked for, and the todos that are reported. -/
def share (o : RunOptions) (policy : DecayPolicy) (l : FileLedger) (live : Batch) (contents : Option String)
    (r : LintResult) : Tally where
  added := (newTodos o policy l live contents r).length
  removed := (live.toList.filter (!outlasts o l r ·)).length +
    ((newTodos o policy l live contents r).filter fun t => o.cleaning && l.isExpired t).length
  demoted := (askedOf o l (live.toList ++ newTodos o policy l live contents r) r).length
  violations := (violations o (live.toList ++ newTodos o policy l live contents r) r).length

/-! ## The severities that are asked for -/

/-- A key with a place is that of an error. -/
theorem contains_of_placeOf? {key : String} {place : Nat} (h : placeOf? o r key = some place) :
    (errorKeys o r).contains key = true := by
  obtain ⟨⟨d, k⟩, hfind, -⟩ := Option.map_eq_some_iff.mp h
  obtain rfl : keyOf o.engine (r.path o.baseDir) d = key := by simpa using List.find?_some hfind
  exact contains_keyOf_of_mem_firstErrors (List.mem_of_find?_eq_some hfind)

/-- Only the todos of a file ask for severities in its result, when those with the keys of its errors are all of
the file. -/
theorem askedOf_eq_of_concerns
    (hown : ∀ t ∈ ts, (errorKeys o r).contains t.key = true → concerns o r t = true) :
    askedOf o l ts r =
      (ts.filter fun t => concerns o r t && ((errorKeys o r).contains t.key && !l.isExpired t)).filterMap
        fun t => (placeOf? o r t.key).map fun place => ⟨t.filePath, place, l.severity t⟩ := by
  rw [askedOf, List.filterMap_filter, List.filterMap_filter]
  apply List.filterMap_congr
  intro t ht
  cases hplace : placeOf? o r t.key with
  | none => simp
  | some place =>
    have hkey := contains_of_placeOf? hplace
    have hconcerns := hown t ht hkey
    rw [covers_of_concerns hconcerns, hconcerns, hkey, Bool.true_and, Bool.true_and]

/-- Once the errors of a file are written, the todos with their keys are those that were live when the run
started and those that were written for it. -/
theorem FilesApart.filter_written_first (h : FilesApart o results live) (hr : results[n]? = some r)
    (hb : b.toList = liveAfterFirst o policy read results l live n) (htoday : l₁.today = l.today)
    (q : Todo → Bool) :
    (written o policy l₁ b contents r).filter
        (fun t => concerns o r t && ((errorKeys o r).contains t.key && q t)) =
      (live.toList ++ newTodos o policy l live contents r).filter
        fun t => concerns o r t && ((errorKeys o r).contains t.key && q t) := by
  have hold : (liveAfterFirst o policy read results l live n).filter
      (fun t => concerns o r t && ((errorKeys o r).contains t.key && q t)) =
        live.toList.filter fun t => concerns o r t && ((errorKeys o r).contains t.key && q t) :=
    h.filter_concerns_first hr _
  have hnew := h.newTodos_first hr hb htoday contents
  rw [List.filter_append, ← hold, ← hb]
  unfold written
  split
  · rw [List.filter_append, hnew, List.filter_filter]
    congr 1
    apply List.filter_congr
    intro t _
    cases (errorKeys o r).contains t.key <;> simp
  · next hkeeps =>
    have hnone : newTodos o policy l live contents r = [] := by rw [newTodos, if_neg hkeeps]
    rw [hnone, List.filter_nil, List.append_nil]

/-- When it is the turn of a file, its todos ask for the severities that the todos ask for which were live when
the run started and which were written for it. -/
theorem FilesApart.askedOf_written (h : FilesApart o results live) (hr : results[n]? = some r)
    (hb : b.toList = liveAfterFirst o policy read results l live n) (htoday : l₁.today = l.today) :
    askedOf o l₁ (written o policy l₁ b contents r) r =
      askedOf o l (live.toList ++ newTodos o policy l live contents r) r := by
  have hown : ∀ t ∈ b.toList, (errorKeys o r).contains t.key = true → concerns o r t = true := by
    rw [hb]
    exact fun t ht => h.concerns_of_mem_first hr ht
  have hown' : ∀ t ∈ live.toList ++ newTodos o policy l live contents r,
      (errorKeys o r).contains t.key = true → concerns o r t = true := by
    intro t ht hkey
    rcases List.mem_append.mp ht with hold | hnew
    · exact h.concerns_of_mem (List.mem_of_getElem? hr) hold hkey
    · exact (mem_newTodos hnew).1
  rw [askedOf_eq_of_concerns (concerns_of_mem_written hown), askedOf_eq_of_concerns hown',
    FileLedger.isExpired_congr htoday, FileLedger.severity_congr htoday,
    h.filter_written_first hr hb htoday]

/-! ## One more file -/

/-- A demotion that is asked for names a diagnostic of the result. -/
theorem origin_of_mem_askedOf {d : Demotion} (h : d ∈ askedOf o l ts r) : d.origin < r.warnings.length := by
  obtain ⟨t, -, hasked⟩ := List.mem_filterMap.mp h
  obtain ⟨place, hplace, rfl⟩ := Option.map_eq_some_iff.mp hasked
  unfold placeOf? at hplace
  obtain ⟨⟨w, k⟩, hfind, rfl⟩ := Option.map_eq_some_iff.mp hplace
  have hat := (Candidates.mem_firstErrors.mp (List.mem_of_find?_eq_some hfind)).1
  exact (List.getElem?_eq_some_iff.mp hat).1

/-- The work on one more file counts as removed the todos of the file that do not outlast it, and the new ones
that have expired. -/
theorem FilesApart.removed_of_reconcile (h : FilesApart o results live) (hr : results[n]? = some r)
    (hshows : l₁.Shows b) (hb : b.toList = liveAfterFirst o policy read results l live n)
    (htoday : l₁.today = l.today) (hy : Yields (reconcile o policy read r) l₁ step l₂) :
    step.removed = (share o policy l live (read l₁ r.sourcePath) r).removed := by
  have hpath := h.paths r (List.mem_of_getElem? hr)
  have hown : ∀ t ∈ b.toList, (errorKeys o r).contains t.key = true → concerns o r t = true := by
    rw [hb]
    exact fun t ht => h.concerns_of_mem_first hr ht
  obtain ⟨⟨after, hafter, hlist⟩, -⟩ := shows_reconcile hshows hpath hown hy
  have hsize := (booked_reconcile hy).size_eq hshows.current hafter.current
  have hadded := added_of_reconcile (LintResult.sourcePath_isEmpty hpath) hshows.current hy
  have hout : outlasts o l₁ r = outlasts o l r := by
    funext t
    rw [outlasts, outlasts, FileLedger.isExpired_congr htoday]
  have hgone : b.toList.filter (!outlasts o l r ·) = live.toList.filter (!outlasts o l r ·) := by
    rw [hb]
    unfold outlasts
    simp only [Bool.not_not]
    exact h.filter_concerns_first hr _
  rw [h.newTodos_first hr hb htoday, hout, FileLedger.isExpired_congr htoday] at hlist
  rw [h.newTodos_first hr hb htoday] at hadded
  rw [Batch.size_eq, Batch.size_eq, hlist, List.length_append, hadded] at hsize
  have hlive := List.length_eq_length_filter_add (l := b.toList) (outlasts o l r)
  have hnew := List.length_eq_length_filter_add
    (l := newTodos o policy l live (read l₁ r.sourcePath) r) fun t => o.cleaning && l.isExpired t
  show step.removed = (live.toList.filter (!outlasts o l r ·)).length + _
  rw [hgone] at hlive
  omega

/-- The work on one more file adds its share to the tally. -/
theorem FilesApart.tally_add (h : FilesApart o results live) (hr : results[n]? = some r)
    (hshows : l₁.Shows b) (hb : b.toList = liveAfterFirst o policy read results l live n)
    (htoday : l₁.today = l.today) (hresults : p.results = resultsAfterFirst o policy read results l live n)
    (hy : Yields (reconcile o policy read r) l₁ step l₂) :
    (p.add o step).tally = p.tally.plus (share o policy l live (read l₁ r.sourcePath) r) := by
  have hpath := h.paths r (List.mem_of_getElem? hr)
  have hsource := LintResult.sourcePath_isEmpty hpath
  have hplace : p.results[n]? = some r := by
    rw [hresults]
    exact getElem?_resultsAfterFirst hr
  have hpaths : (p.results.map (LintResult.path o.baseDir)).Nodup := by
    rw [hresults, map_path_resultsAfterFirst]
    exact h.nodup_paths
  obtain ⟨after, -, hworked⟩ := shows_worked hshows hsource hy
  have hasked : step.changes.demotions = askedOf o l (live.toList ++
      newTodos o policy l live (read l₁ r.sourcePath) r) r := by
    rw [hworked.demotions, demotionsOf_eq_askedOf, h.askedOf_written hr hb htoday]
  have hreported : step.changes.violations.length = (violations o (live.toList ++
      newTodos o policy l live (read l₁ r.sourcePath) r) r).length := by
    rw [← List.length_map Violation.diagnostic, hworked.map_diagnostic hpath, h.violations_written hr hb]
  have happlied := Changes.applied_apply hplace hpaths (c := step.changes)
    (fun d hd => ⟨hworked.filePath_of_mem_demotions hpath d hd, origin_of_mem_askedOf (hasked ▸ hd)⟩)
    (hworked.filePath_of_mem_violations hpath)
  unfold Progress.add
  dsimp only
  rw [happlied, added_of_reconcile hsource hshows.current hy, h.newTodos_first hr hb htoday,
    h.removed_of_reconcile hr hshows hb htoday hy, hreported, hasked]
  rfl

/-! ## The loop -/

/-- What is counted for the first files is the sum of their shares. -/
theorem tally_files (h : l.Shows live) (hapart : FilesApart o results live) (hn : n ≤ results.length)
    (hy : Yields ((List.range n).foldlM (advance o policy read) { results }) l p l') :
    p.tally = .total ((results.take n).mapIdx fun i r =>
      share o policy l live (read (ledgerBefore o policy read results l i) r.sourcePath) r) := by
  induction n generalizing p l' with
  | zero =>
    obtain ⟨rfl, -⟩ := yields_pure.mp hy
    rfl
  | succ n ih =>
    obtain ⟨q, l₁, hfirst, hlast⟩ := yields_foldlM_range_succ.mp hy
    obtain ⟨htoday, ⟨b, hshows, hb⟩, hresults⟩ := shows_files h hapart (Nat.le_of_succ_le hn) hfirst
    have hr : results[n]? = some results[n] := List.getElem?_eq_getElem hn
    have hbefore := ledgerBefore_eq hfirst
    have hlength : (results.take n).length = n := List.length_take_of_le (Nat.le_of_succ_le hn)
    have hturn : q.results[n]? = some results[n] := by
      rw [hresults]
      exact getElem?_resultsAfterFirst hr
    obtain ⟨step, hstep, rfl⟩ := (yields_advance_of_getElem? hturn).mp hlast
    rw [hapart.tally_add hr hshows hb htoday hresults hstep, ih (Nat.le_of_succ_le hn) hfirst,
      List.take_succ_eq_append_getElem hn, List.mapIdx_concat, hlength, hbefore, Tally.total_concat]

end Run

end LintDebt
