import LintDebt.Proofs.Run.Formatter

/-!
# What an update leaves

An update writes a todo for every error of its files and takes out the other todos of its engine there.  When
it is on different files, the severities in its results are in the end those that the live todos give, and no
todo is live that the work on one of the files would take out.  Keys need not tell todos apart for this.

* `LintDebt.Run.askedOf`, `LintDebt.Run.judged`: the severities that live todos give to the errors of a result.
* `LintDebt.Run.demotionsOf_eq_askedOf`: how the todos were reproduced has no part in it.
* `LintDebt.Run.FilesDiffer`: the results of an update are for different files.
* `LintDebt.Run.Updated`: what an update has left after its first files.
* `LintDebt.Run.Updated.judges_add`, `LintDebt.Run.Updated.kept_add`: one more file.
* `LintDebt.Run.Updated.yields_advance`, `LintDebt.Run.updated_files`: all of them.
-/

namespace LintDebt.Run

open Candidates (keyOf firstErrors)
open FileLedger (reproduced matched)

variable {o : RunOptions} {policy : DecayPolicy} {contents : Option String} {r s : LintResult}
  {read : FileLedger → String → Option String} {results : List LintResult} {l l' : FileLedger}
  {live after : Batch} {ts us : List Todo} {t : Todo} {changes : Changes} {step : FileStep}
  {p : Progress} {n : Nat}

/-! ## Severities from live todos -/

/-- The place of the first error with a key. -/
def placeOf? (o : RunOptions) (r : LintResult) (key : String) : Option Nat :=
  ((firstErrors o.engine (r.path o.baseDir) r.warnings).find? fun (d, _) =>
    keyOf o.engine (r.path o.baseDir) d == key).map (·.2)

/-- The demotions that todos ask for in a result: each that the result is for and that has not expired asks
for that of the first error with its key. -/
def askedOf (o : RunOptions) (l : FileLedger) (ts : List Todo) (r : LintResult) : List Demotion :=
  (ts.filter fun t => covers o r t && !l.isExpired t).filterMap fun t =>
    (placeOf? o r t.key).map fun place => ⟨t.filePath, place, l.severity t⟩

/-- A result with the severities that todos give to its errors. -/
def judged (o : RunOptions) (l : FileLedger) (ts : List Todo) (r : LintResult) : LintResult :=
  { r with warnings := (askedOf o l ts r).foldl Changes.demoteAt r.warnings }

/-- The candidate with a key is made from the first error with this key. -/
theorem get?_candidatesOf (key : String) :
    (candidatesOf o policy contents r).get? key =
      ((firstErrors o.engine (r.path o.baseDir) r.warnings).find? fun (d, _) =>
        keyOf o.engine (r.path o.baseDir) d == key).map fun (d, i) =>
          Candidates.ofDiagnostic ⟨o.baseDir, o.engine, policy⟩ (r.path o.baseDir) contents i d := by
  rw [candidatesOf, Batch.get?_eq_find?, Batch.toList_ofList, Candidates.firsts_ofWarnings,
    List.find?_map]
  rfl

/-- Reproduced todos ask for what their keys ask for: the source text and the policy have no part in it. -/
theorem demotionsOf_eq_askedOf : demotionsOf o policy contents r l ts = askedOf o l ts r := by
  rw [demotionsOf, reproduced, askedOf, List.filter_filterMap, List.filterMap_filterMap,
    List.filterMap_filter, List.filterMap_filter]
  apply List.filterMap_congr
  intro t _
  have hexpired (c : Todo) : l.isExpired { t with origin := c.origin, decay := c.decay } =
      l.isExpired t := rfl
  rw [covers_scopeOf, matched, get?_candidatesOf, placeOf?]
  -- it does not matter which first error is found
  generalize List.find? _ (firstErrors o.engine (r.path o.baseDir) r.warnings) = found
  rcases found with _ | ⟨d, place⟩
  · simp
  · rw [Option.map_some, Option.map_some, Option.filter_some, hexpired]
    by_cases hcovers : covers o r t = true
    · by_cases hexp : l.isExpired t = true
      · simp [hexp]
      · rw [hcovers, Bool.eq_false_iff.mpr hexp]
        rfl
    · simp [hcovers]

/-- On one day, todos that are the same as far as the result is for them and they have not expired give the
same severities. -/
theorem judged_congr (htoday : l'.today = l.today)
    (h : us.filter (fun t => covers o r t && !l.isExpired t) =
      ts.filter fun t => covers o r t && !l.isExpired t) : judged o l' us r = judged o l ts r := by
  rw [judged, judged, askedOf, askedOf, FileLedger.isExpired_congr htoday,
    FileLedger.severity_congr htoday, h]

/-! ## What an update leaves of one file -/

section Worked

variable (h : Worked o policy l live contents r after changes)
include h

/-- An update reports no todos. -/
theorem Worked.violations_eq_nil (hupdating : o.updating = true) : changes.violations = [] := by
  rw [h.violations, hupdating, Bool.true_or, if_pos rfl]

/-- An update on a file gives the severities of the todos that are live afterwards. -/
theorem Worked.demotions_eq_askedOf (hupdating : o.updating = true) :
    changes.demotions = askedOf o l after.toList r := by
  have habandoned := @abandoned_written o policy contents r l live hupdating
  rw [abandoned_eq, List.filter_eq_nil_iff] at habandoned
  rw [h.demotions, demotionsOf_eq_askedOf, askedOf, askedOf, h.left, ← filter_written,
    List.filter_filter]
  apply congrArg (List.filterMap _)
  apply List.filter_congr
  intro t ht
  -- none is abandoned, so that what is swept up has expired
  have hswept (hcovers : covers o r t = true) (hexp : l.isExpired t = false) :
      (if (errorKeys o r).contains t.key then l.isExpired t else t.engine == o.engine) = false := by
    split
    · exact hexp
    · next hkey =>
      have hnone := habandoned t ht
      rw [hcovers, Bool.true_and, Bool.eq_false_iff.mpr hkey, Bool.not_false, Bool.and_true] at hnone
      exact Bool.eq_false_iff.mpr hnone
  by_cases hcovers : covers o r t = true
  · by_cases hexp : l.isExpired t = true
    · simp [hexp]
    · rw [hswept hcovers (Bool.eq_false_iff.mpr hexp)]
      simp
  · simp [hcovers]

/-- The work on a file leaves nothing that it would take out. -/
theorem Worked.drops_eq_false (ht : t ∈ after.toList) : drops o l r t = false := by
  rw [h.left] at ht
  rcases List.mem_append.mp ht with hold | hnew
  · exact (Bool.not_eq_true' _).mp (List.mem_filter.mp hold).2
  · obtain ⟨hmem, hkept⟩ := List.mem_filter.mp hnew
    rw [drops, (mem_newTodos hmem).2, if_pos rfl, (Bool.not_eq_true' _).mp hkept, Bool.and_false]

/-- The work on a file leaves the todos of other files. -/
theorem Worked.filter_covers_other (hr : r.path o.baseDir ≠ "") (hs : s.path o.baseDir ≠ "")
    (hne : s.path o.baseDir ≠ r.path o.baseDir) (q : Todo → Bool) :
    after.toList.filter (fun t => covers o s t && q t) =
      live.toList.filter fun t => covers o s t && q t := by
  have hother (t : Todo) (ht : covers o s t = true) : covers o r t = false := by
    rw [covers_of_path hs, beq_iff_eq] at ht
    rw [covers_of_path hr, ht]
    exact beq_eq_false_iff_ne.mpr hne
  have hnone : ((newTodos o policy l live contents r).filter
      fun t => !(o.cleaning && l.isExpired t)).filter (fun t => covers o s t && q t) = [] := by
    rw [List.filter_eq_nil_iff]
    intro t ht htest
    have hown := covers_of_concerns (mem_newTodos (List.mem_filter.mp ht).1).1
    rw [hother t (Bool.and_eq_true_iff.mp htest).1] at hown
    cases hown
  rw [h.left, List.filter_append, hnone, List.append_nil, List.filter_filter]
  apply List.filter_congr
  intro t _
  by_cases hcovers : covers o s t = true
  · simp [drops, hother t hcovers]
  · simp [hcovers]

end Worked

/-! ## Lists whose first values are changed -/

/-- Behind the first values that are changed, the others are as they were. -/
theorem getElem?_map_take_append {α : Type} {xs : List α} {x : α} (hx : xs[n]? = some x) (f : α → α) :
    ((xs.take n).map f ++ xs.drop n)[n]? = some x := by
  have hlength : ((xs.take n).map f).length = n := by
    rw [List.length_map, List.length_take_of_le (Nat.le_of_lt (List.getElem?_eq_some_iff.mp hx).1)]
  rw [List.getElem?_append_right (Nat.le_of_eq hlength), hlength, Nat.sub_self, List.getElem?_drop,
    Nat.add_zero, hx]

/-- One more of the first values is changed, while the others change as before. -/
theorem set_map_take_append {α : Type} {xs : List α} {x : α} (hx : xs[n]? = some x) {f g : α → α}
    (h : ∀ z ∈ xs.take n, g z = f z) :
    ((xs.take n).map f ++ xs.drop n).set n (g x) = (xs.take (n + 1)).map g ++ xs.drop (n + 1) := by
  obtain ⟨hlt, rfl⟩ := List.getElem?_eq_some_iff.mp hx
  have hlength : ((xs.take n).map f).length = n := by
    rw [List.length_map, List.length_take_of_le (Nat.le_of_lt hlt)]
  rw [List.set_append_right n (g xs[n]) (Nat.le_of_eq hlength), hlength, Nat.sub_self,
    List.drop_eq_getElem_cons hlt, List.set_cons_zero, List.take_succ_eq_append_getElem hlt,
    List.map_append, List.map_congr_left h, List.append_assoc]
  rfl

/-! ## What an update leaves of all files -/

/-- The results are for different files, all with a path. -/
structure FilesDiffer (o : RunOptions) (results : List LintResult) : Prop where
  paths : ∀ r ∈ results, r.path o.baseDir ≠ ""
  nodup_paths : (results.map (LintResult.path o.baseDir)).Nodup

/-- What an update has left after its first files: their results have the severities that the live todos
give, and no live todo is one that the work on one of the files would take out. -/
structure Updated (o : RunOptions) (results : List LintResult) (n : Nat) (l : FileLedger) (live : Batch)
    (p : Progress) : Prop where
  shows : l.Shows live
  judges : p.results = (results.take n).map (judged o l live.toList) ++ results.drop n
  kept : ∀ r ∈ results.take n, ∀ t ∈ live.toList, drops o l r t = false

/-- Results that get their severities keep their paths. -/
theorem Updated.map_path (h : Updated o results n l live p) :
    p.results.map (LintResult.path o.baseDir) = results.map (LintResult.path o.baseDir) := by
  have hpath : LintResult.path o.baseDir ∘ judged o l live.toList = LintResult.path o.baseDir := rfl
  rw [h.judges, List.map_append, List.map_map, hpath, ← List.map_append, List.take_append_drop]

/-- The work on one more file leaves the todos of earlier ones. -/
theorem Worked.filter_covers_earlier (h : Worked o policy l live contents r after changes)
    (hdiffer : FilesDiffer o results) (hr : results[n]? = some r) (hs : s ∈ results.take n)
    (q : Todo → Bool) :
    after.toList.filter (fun t => covers o s t && q t) =
      live.toList.filter fun t => covers o s t && q t := by
  apply h.filter_covers_other
  · exact hdiffer.paths r (List.mem_of_getElem? hr)
  · exact hdiffer.paths s (List.mem_of_mem_take hs)
  · exact path_ne_of_mem_take hdiffer.nodup_paths hr hs

section Add

variable (hupdated : Updated o results n l live p) (hdiffer : FilesDiffer o results)
  (hr : results[n]? = some r) (hworked : Worked o policy l live contents r after changes)
include hupdated hdiffer hr hworked

/-- The result of one more file gets the severities of the todos that are live then, and the results of
earlier files keep theirs. -/
theorem Updated.judges_add (hupdating : o.updating = true) (htoday : l'.today = l.today) :
    (changes.apply o.baseDir p.results).results =
      (results.take (n + 1)).map (judged o l' after.toList) ++ results.drop (n + 1) := by
  have hpath := hdiffer.paths r (List.mem_of_getElem? hr)
  have hplace : p.results[n]? = some r := by
    rw [hupdated.judges]
    exact getElem?_map_take_append hr _
  have hpaths : (p.results.map (LintResult.path o.baseDir)).Nodup := by
    rw [hupdated.map_path]
    exact hdiffer.nodup_paths
  have hjudged : judged o l' after.toList r =
      { r with warnings := changes.demotions.foldl Changes.demoteAt r.warnings ++
        changes.violations.map Violation.diagnostic } := by
    rw [hworked.violations_eq_nil hupdating, hworked.demotions_eq_askedOf hupdating, List.map_nil,
      List.append_nil, judged_congr htoday rfl, judged]
  have hfirst : ∀ s ∈ results.take n, judged o l' after.toList s = judged o l live.toList s := by
    intro s hs
    apply judged_congr htoday
    exact hworked.filter_covers_earlier hdiffer hr hs _
  rw [Changes.results_apply hplace hpaths (hworked.filePath_of_mem_demotions hpath)
    (hworked.filePath_of_mem_violations hpath), ← hjudged, hupdated.judges]
  exact set_map_take_append hr hfirst

/-- After the work on one more file, no live todo is one that the work on it or on an earlier file would take
out. -/
theorem Updated.kept_add (hs : s ∈ results.take (n + 1)) (ht : t ∈ after.toList) :
    drops o l s t = false := by
  obtain ⟨hlt, rfl⟩ := List.getElem?_eq_some_iff.mp hr
  rw [List.take_succ_eq_append_getElem hlt, List.mem_append, List.mem_singleton] at hs
  rcases hs with hs | rfl
  · rw [← Bool.not_eq_true]
    intro hdrops
    -- a todo of an earlier file was live before, and would not be taken out then
    have hbefore : t ∈ live.toList.filter fun t => covers o s t && drops o l s t := by
      rw [← hworked.filter_covers_earlier hdiffer hr hs]
      simp [ht, covers_of_drops hdrops, hdrops]
    have hkept := hupdated.kept s hs t (List.mem_filter.mp hbefore).1
    exact Bool.false_ne_true (hkept.symm.trans hdrops)
  · exact hworked.drops_eq_false ht

end Add

/-- An update that has worked on its first files works on the next one as it was given. -/
theorem Updated.yields_advance (h : Updated o results n l live p) (hn : n < results.length)
    {q : Progress} :
    Yields (advance o policy read p n) l q l' ↔
      ∃ step, Yields (reconcile o policy read results[n]) l step l' ∧ q = p.add o step := by
  apply yields_advance_of_getElem?
  rw [h.judges]
  exact getElem?_map_take_append (List.getElem?_eq_getElem hn) _

/-- An update on different files leaves this after the first of them. -/
theorem updated_files (hupdating : o.updating = true) (hdiffer : FilesDiffer o results)
    (h : l.Shows live) (hn : n ≤ results.length)
    (hy : Yields ((List.range n).foldlM (advance o policy read) { results }) l p l') :
    ∃ live', Updated o results n l' live' p := by
  induction n generalizing p l' with
  | zero =>
    obtain ⟨rfl, rfl⟩ := yields_pure.mp hy
    exact ⟨live, h, rfl, nofun⟩
  | succ n ih =>
    obtain ⟨q, l₁, hfirst, hlast⟩ := yields_foldlM_range_succ.mp hy
    obtain ⟨live₁, hupdated⟩ := ih (Nat.le_of_succ_le hn) hfirst
    have hr : results[n]? = some results[n] := List.getElem?_eq_getElem hn
    have hpath := hdiffer.paths results[n] (List.getElem_mem hn)
    obtain ⟨step, hstep, rfl⟩ := (hupdated.yields_advance hn).mp hlast
    have htoday : l'.today = l₁.today :=
      (ends_reconcile (FileLedger.invariant_today l₁.today) rfl o policy read _).of_yields hstep
    obtain ⟨live', hshows, hworked⟩ :=
      shows_worked hupdated.shows (LintResult.sourcePath_isEmpty hpath) hstep
    refine ⟨live', hshows, hupdated.judges_add hdiffer hr hworked hupdating htoday, ?_⟩
    intro s hs t ht
    rw [drops_congr htoday]
    exact hupdated.kept_add hdiffer hr hworked hs ht

end LintDebt.Run
