import LintDebt.Changes
import Mathlib.Data.List.Nodup

/-!
# What changes do to results

Changes that are all about one file touch the one result for it: severities are set where the changes
say, and diagnostics follow at the end.

* `LintDebt.LintResult.indexOf?_eq`: the result of a file is found among results for different files.
* `LintDebt.Changes.getElem?_foldl_demoteAt`: the diagnostics of a result with severities set.
* `LintDebt.Changes.results_apply`: the results with the changes about one file.
* `LintDebt.Changes.applied_apply`: and how many of the changes are counted.
* `LintDebt.Changes.sources_apply`: every result keeps its source.
* `LintDebt.Changes.getElem?_apply`: the results behind the first one for the file stay the same.
-/

namespace LintDebt

/-- The path of a result, seen from a base directory. -/
def LintResult.path (baseDir : String) (r : LintResult) : String :=
  Path.relativeTo baseDir r.sourcePath

/-- No source has no path. -/
theorem Path.relativeTo_empty (base : String) : relativeTo base "" = "" := by
  have hcomponents : components "" = [] := by decide
  have habsolute : isAbsolute "" = false := by decide
  unfold relativeTo
  rw [habsolute, hcomponents, Bool.false_and, if_neg Bool.false_ne_true]
  unfold stripBase
  cases components base <;> rfl

/-- A result that has a path has a source. -/
theorem LintResult.sourcePath_isEmpty {baseDir : String} {r : LintResult}
    (h : r.path baseDir ≠ "") : r.sourcePath.isEmpty = false := by
  rw [← Bool.not_eq_true]
  intro hempty
  apply h
  rw [path, String.isEmpty_iff.mp hempty, Path.relativeTo_empty]

/-- Among results for different files, each is found by its path. -/
theorem LintResult.indexOf?_eq {results : List LintResult} {baseDir : String} {i : Nat}
    {r : LintResult} (hi : results[i]? = some r) (hpaths : (results.map (path baseDir)).Nodup) :
    indexOf? results baseDir (r.path baseDir) = some i := by
  obtain ⟨hlt, rfl⟩ := List.getElem?_eq_some_iff.mp hi
  unfold indexOf?
  rw [List.findIdx?_eq_some_iff_getElem]
  refine ⟨hlt, by simp [path], ?_⟩
  intro j hj hsame
  have hpath : (results[j].path baseDir) = results[i].path baseDir := by simpa [path] using hsame
  have hjlt : j < (results.map (path baseDir)).length := by
    rw [List.length_map]
    omega
  have hilt : i < (results.map (path baseDir)).length := by
    rwa [List.length_map]
  have hmapped : (results.map (path baseDir))[j] = (results.map (path baseDir))[i] := by
    rw [List.getElem_map, List.getElem_map, hpath]
  exact Nat.ne_of_lt hj ((List.Nodup.getElem_inj_iff hpaths).mp hmapped)

/-- A diagnostic with the severity that is set for it, if one is. -/
def Diagnostic.demoted (d : Diagnostic) (severity : Option Severity) : Diagnostic :=
  { d with severity := severity.getD d.severity }

namespace Changes

/-- The diagnostics of a result, with a severity set at the place that a demotion names. -/
def demoteAt (warnings : List Diagnostic) (d : Demotion) : List Diagnostic :=
  warnings.modify d.origin ({ · with severity := d.severity })

/-- Setting severities neither adds a diagnostic nor takes one out. -/
theorem length_foldl_demoteAt (demotions : List Demotion) (warnings : List Diagnostic) :
    (demotions.foldl demoteAt warnings).length = warnings.length := by
  induction demotions generalizing warnings with
  | nil => rfl
  | cons d rest ih => rw [List.foldl_cons, ih, demoteAt, List.length_modify]

/-- Where demotions agree with each other, each diagnostic that one of them names gets the severity
that it asks for, and the others keep theirs. -/
theorem getElem?_foldl_demoteAt {demotions : List Demotion} (severity : Nat → Option Severity)
    (hsets : ∀ d ∈ demotions, severity d.origin = some d.severity)
    (hset : ∀ i s, severity i = some s → ∃ d ∈ demotions, d.origin = i)
    (warnings : List Diagnostic) (i : Nat) :
    (demotions.foldl demoteAt warnings)[i]? = warnings[i]?.map (·.demoted (severity i)) := by
  have hfold : (demotions.foldl demoteAt warnings)[i]? = warnings[i]?.map fun w =>
      if demotions.any (·.origin == i) then w.demoted (severity i) else w := by
    clear hset
    induction demotions generalizing warnings with
    | nil => simp
    | cons d rest ih =>
      rw [List.foldl_cons, ih (fun e he => hsets e (List.mem_cons_of_mem d he)), demoteAt,
        List.getElem?_modify, Option.map_eq_map, Option.map_map, List.any_cons]
      by_cases hi : d.origin = i
      · have hd := hsets d List.mem_cons_self
        rw [hi] at hd
        refine Option.map_congr fun w _ => ?_
        cases rest.any (·.origin == i) <;> simp [hi, hd, Diagnostic.demoted]
      · refine Option.map_congr fun w _ => ?_
        simp [hi]
  rw [hfold]
  refine Option.map_congr fun w _ => ?_
  split
  · rfl
  · next hnone =>
    cases hi : severity i with
    | none => rfl
    | some s =>
      obtain ⟨d, hd, horigin⟩ := hset i s hi
      exact absurd (List.any_eq_true.mpr ⟨d, hd, by simpa using horigin⟩) hnone

/-- A result put in the place of one with the same source has the same path. -/
theorem map_path_set {results : List LintResult} (baseDir : String) {i : Nat} {r r' : LintResult}
    (hi : results[i]? = some r) (hsource : r'.source = r.source) :
    (results.set i r').map (LintResult.path baseDir) = results.map (LintResult.path baseDir) := by
  obtain ⟨hlt, rfl⟩ := List.getElem?_eq_some_iff.mp hi
  have hpath : r'.path baseDir = results[i].path baseDir := by
    simp [LintResult.path, LintResult.sourcePath, hsource]
  rw [List.map_set, hpath, ← List.getElem_map (LintResult.path baseDir) (h := by simpa using hlt)]
  exact List.set_getElem_self _

/-- Changing what was put at a place is putting the changed there. -/
theorem modify_set {α : Type} (xs : List α) (i : Nat) (x : α) (f : α → α) :
    (xs.set i x).modify i f = xs.set i (f x) := by
  apply List.ext_getElem?
  intro j
  rw [List.getElem?_modify, List.getElem?_set, List.getElem?_set]
  by_cases hj : i = j
  · by_cases hlt : i < xs.length <;> simp [hj]
  · simp [hj]

section Apply

variable {results : List LintResult} {baseDir : String} {i : Nat} {r : LintResult}

/-- Among results for different files one of which was changed, the changed one is found. -/
theorem indexOf?_set (hi : results[i]? = some r)
    (hpaths : (results.map (LintResult.path baseDir)).Nodup) (warnings : List Diagnostic) :
    LintResult.indexOf? (results.set i { r with warnings }) baseDir (r.path baseDir) = some i := by
  have hlt := (List.getElem?_eq_some_iff.mp hi).1
  refine LintResult.indexOf?_eq (r := { r with warnings }) ?_ ?_
  · rw [List.getElem?_set_self hlt]
  · have hsame := map_path_set baseDir hi
      (show ({ r with warnings } : LintResult).source = r.source from rfl)
    rw [hsame]
    exact hpaths

/-- A severity is set in the one result for its file. -/
theorem results_demote (hi : results[i]? = some r)
    (hpaths : (results.map (LintResult.path baseDir)).Nodup) {a : Applying}
    {warnings : List Diagnostic} (ha : a.results = results.set i { r with warnings })
    {d : Demotion} (hd : d.filePath = r.path baseDir) :
    (a.demote baseDir d).results = results.set i { r with warnings := demoteAt warnings d } := by
  have hlt := (List.getElem?_eq_some_iff.mp hi).1
  unfold Applying.demote
  rw [ha, hd, indexOf?_set hi hpaths]
  simp only [List.getElem?_set_self hlt]
  split
  · exact modify_set _ _ _ _
  · next hbeyond =>
    have hsame : demoteAt warnings d = warnings :=
      List.modify_eq_self (Nat.le_of_not_lt hbeyond)
    rw [hsame]

/-- Severities are set one after the other in the one result for their file. -/
theorem results_foldl_demote (hi : results[i]? = some r)
    (hpaths : (results.map (LintResult.path baseDir)).Nodup) {ds : List Demotion}
    (hds : ∀ d ∈ ds, d.filePath = r.path baseDir) {a : Applying} {warnings : List Diagnostic}
    (ha : a.results = results.set i { r with warnings }) :
    (ds.foldl (Applying.demote baseDir) a).results =
      results.set i { r with warnings := ds.foldl demoteAt warnings } := by
  induction ds generalizing a warnings with
  | nil => exact ha
  | cons d rest ih =>
    exact ih (fun e he => hds e (List.mem_cons_of_mem d he))
      (results_demote hi hpaths ha (hds d List.mem_cons_self))

/-- A diagnostic is added at the end of the one result for its file. -/
theorem results_violate (hi : results[i]? = some r)
    (hpaths : (results.map (LintResult.path baseDir)).Nodup) {a : Applying}
    {warnings : List Diagnostic} (ha : a.results = results.set i { r with warnings })
    {v : Violation} (hv : v.filePath = r.path baseDir) :
    (a.violate baseDir v).results =
      results.set i { r with warnings := warnings ++ [v.diagnostic] } := by
  unfold Applying.violate
  rw [ha, hv, indexOf?_set hi hpaths]
  exact modify_set _ _ _ _

/-- Diagnostics are added one after the other at the end of the one result for their file. -/
theorem results_foldl_violate (hi : results[i]? = some r)
    (hpaths : (results.map (LintResult.path baseDir)).Nodup) {vs : List Violation}
    (hvs : ∀ v ∈ vs, v.filePath = r.path baseDir) {a : Applying} {warnings : List Diagnostic}
    (ha : a.results = results.set i { r with warnings }) :
    (vs.foldl (Applying.violate baseDir) a).results =
      results.set i { r with warnings := warnings ++ vs.map Violation.diagnostic } := by
  induction vs generalizing a warnings with
  | nil =>
    rw [List.map_nil, List.append_nil]
    exact ha
  | cons v rest ih =>
    rw [List.map_cons, List.append_cons]
    exact ih (fun w hw => hvs w (List.mem_cons_of_mem v hw))
      (results_violate hi hpaths ha (hvs v List.mem_cons_self))

/-- Changes that are all about the file of one result change this result alone: severities are set, and
diagnostics are added at its end. -/
theorem results_apply (hi : results[i]? = some r)
    (hpaths : (results.map (LintResult.path baseDir)).Nodup) {c : Changes}
    (hdemotions : ∀ d ∈ c.demotions, d.filePath = r.path baseDir)
    (hviolations : ∀ v ∈ c.violations, v.filePath = r.path baseDir) :
    (c.apply baseDir results).results = results.set i
      { r with warnings := c.demotions.foldl demoteAt r.warnings ++
        c.violations.map Violation.diagnostic } := by
  have hstart : results = results.set i { r with warnings := r.warnings } := by
    obtain ⟨hlt, rfl⟩ := List.getElem?_eq_some_iff.mp hi
    exact (List.set_getElem_self hlt).symm
  exact results_foldl_violate hi hpaths hviolations
    (results_foldl_demote hi hpaths hdemotions hstart)

/-- A severity that is set in the one result for its file is counted. -/
theorem applied_demote (hi : results[i]? = some r)
    (hpaths : (results.map (LintResult.path baseDir)).Nodup) {a : Applying}
    {warnings : List Diagnostic} (ha : a.results = results.set i { r with warnings })
    {d : Demotion} (hd : d.filePath = r.path baseDir) (horigin : d.origin < warnings.length) :
    (a.demote baseDir d).applied = { a.applied with demoted := a.applied.demoted + 1 } := by
  have hlt := (List.getElem?_eq_some_iff.mp hi).1
  unfold Applying.demote
  rw [ha, hd, indexOf?_set hi hpaths]
  simp only [List.getElem?_set_self hlt]
  rw [if_pos horigin]

/-- Severities that are set in the one result for their file are all counted. -/
theorem applied_foldl_demote (hi : results[i]? = some r)
    (hpaths : (results.map (LintResult.path baseDir)).Nodup) {ds : List Demotion} {a : Applying}
    {warnings : List Diagnostic} (hds : ∀ d ∈ ds, d.filePath = r.path baseDir ∧ d.origin < warnings.length)
    (ha : a.results = results.set i { r with warnings }) :
    (ds.foldl (Applying.demote baseDir) a).applied =
      { a.applied with demoted := a.applied.demoted + ds.length } := by
  induction ds generalizing a warnings with
  | nil => rfl
  | cons d rest ih =>
    obtain ⟨hfile, horigin⟩ := hds d List.mem_cons_self
    have hkept : (demoteAt warnings d).length = warnings.length := List.length_modify _ _ _
    rw [List.foldl_cons, ih ?_ (results_demote hi hpaths ha hfile), applied_demote hi hpaths ha hfile horigin,
      List.length_cons, Nat.add_assoc, Nat.add_comm 1]
    rw [hkept]
    exact fun e he => hds e (List.mem_cons_of_mem d he)

/-- Diagnostics that are added to the one result for their file are all counted. -/
theorem applied_foldl_violate (hi : results[i]? = some r)
    (hpaths : (results.map (LintResult.path baseDir)).Nodup) {vs : List Violation}
    (hvs : ∀ v ∈ vs, v.filePath = r.path baseDir) {a : Applying} {warnings : List Diagnostic}
    (ha : a.results = results.set i { r with warnings }) :
    (vs.foldl (Applying.violate baseDir) a).applied =
      { a.applied with violations := a.applied.violations + vs.length } := by
  induction vs generalizing a warnings with
  | nil => rfl
  | cons v rest ih =>
    have hfile := hvs v List.mem_cons_self
    have hfirst : (a.violate baseDir v).applied =
        { a.applied with violations := a.applied.violations + 1 } := by
      unfold Applying.violate
      rw [ha, hfile, indexOf?_set hi hpaths]
    rw [List.foldl_cons, ih (fun w hw => hvs w (List.mem_cons_of_mem v hw))
      (results_violate hi hpaths ha hfile), hfirst, List.length_cons, Nat.add_assoc, Nat.add_comm 1]

/-- Changes that are all about diagnostics of one result, and about its file, are all counted, and none is
skipped. -/
theorem applied_apply (hi : results[i]? = some r)
    (hpaths : (results.map (LintResult.path baseDir)).Nodup) {c : Changes}
    (hdemotions : ∀ d ∈ c.demotions, d.filePath = r.path baseDir ∧ d.origin < r.warnings.length)
    (hviolations : ∀ v ∈ c.violations, v.filePath = r.path baseDir) :
    (c.apply baseDir results).applied =
      { demoted := c.demotions.length, violations := c.violations.length } := by
  have hstart : results = results.set i { r with warnings := r.warnings } := by
    obtain ⟨hlt, rfl⟩ := List.getElem?_eq_some_iff.mp hi
    exact (List.set_getElem_self hlt).symm
  have hset := results_foldl_demote (a := { results }) hi hpaths (fun d hd => (hdemotions d hd).1) hstart
  unfold apply
  rw [applied_foldl_violate hi hpaths hviolations hset, applied_foldl_demote hi hpaths hdemotions hstart,
    Nat.zero_add, Nat.zero_add]

end Apply

/-! ## Any results -/

section Any

variable {results : List LintResult} {baseDir file : String} {i j : Nat} {a : Applying}

/-- A result whose diagnostics are changed keeps its source. -/
theorem sources_modify (results : List LintResult) (i : Nat)
    (f : List Diagnostic → List Diagnostic) :
    (results.modify i fun r => { r with warnings := f r.warnings }).map LintResult.source =
      results.map LintResult.source := by
  apply List.ext_getElem?
  intro j
  rw [List.getElem?_map, List.getElem?_map, List.getElem?_modify, Option.map_eq_map, Option.map_map]
  refine Option.map_congr fun r _ => ?_
  by_cases hj : i = j <;> simp [hj]

/-- Setting a severity leaves every result its source. -/
theorem sources_demote (baseDir : String) (a : Applying) (d : Demotion) :
    (a.demote baseDir d).results.map LintResult.source = a.results.map LintResult.source := by
  unfold Applying.demote
  dsimp only
  split
  · rfl
  · split
    · rfl
    · split
      · exact sources_modify _ _ (·.modify d.origin ({ · with severity := d.severity }))
      · rfl

/-- Adding a diagnostic leaves every result its source, and at most adds one more result. -/
theorem sources_violate (baseDir : String) (a : Applying) (v : Violation) :
    a.results.map LintResult.source <+: (a.violate baseDir v).results.map LintResult.source := by
  unfold Applying.violate
  split
  · next i _ =>
    have hsame := sources_modify a.results i (· ++ [v.diagnostic])
    exact hsame ▸ List.prefix_refl _
  · rw [List.map_append]
    exact List.prefix_append _ _

/-- Changes leave every result its source, and at most add more results. -/
theorem sources_apply (c : Changes) (baseDir : String) (results : List LintResult) :
    results.map LintResult.source <+: (c.apply baseDir results).results.map LintResult.source := by
  have hdemote (ds : List Demotion) (a : Applying) :
      (ds.foldl (Applying.demote baseDir) a).results.map LintResult.source =
        a.results.map LintResult.source := by
    induction ds generalizing a with
    | nil => rfl
    | cons d rest ih => rw [List.foldl_cons, ih, sources_demote]
  have hviolate (vs : List Violation) (a : Applying) : a.results.map LintResult.source <+:
      (vs.foldl (Applying.violate baseDir) a).results.map LintResult.source := by
    induction vs generalizing a with
    | nil => exact List.prefix_refl _
    | cons v rest ih =>
      rw [List.foldl_cons]
      exact (sources_violate baseDir a v).trans (ih _)
  have hstart := hviolate c.violations (c.demotions.foldl (Applying.demote baseDir) { results })
  rwa [hdemote] at hstart

/-- The first result for a file does not stand behind another one for it. -/
theorem exists_indexOf?_le (hi : (results.map (LintResult.path baseDir))[i]? = some file) :
    ∃ k ≤ i, LintResult.indexOf? results baseDir file = some k := by
  rw [List.getElem?_map, Option.map_eq_some_iff] at hi
  obtain ⟨r, hr, hpath⟩ := hi
  obtain ⟨hlt, rfl⟩ := List.getElem?_eq_some_iff.mp hr
  cases hfound : LintResult.indexOf? results baseDir file with
  | none =>
    have hnone := List.findIdx?_eq_none_iff.mp hfound results[i] (List.getElem_mem hlt)
    exact absurd hpath (by simpa [LintResult.path] using hnone)
  | some k =>
    refine ⟨k, Nat.le_of_not_lt fun hik => ?_, rfl⟩
    obtain ⟨hk, -, hfirst⟩ := List.findIdx?_eq_some_iff_getElem.mp hfound
    exact hfirst i hik (beq_iff_eq.mpr hpath)

/-- Behind a result for its file, a demotion changes nothing. -/
theorem getElem?_demote (hi : (a.results.map (LintResult.path baseDir))[i]? = some file) (hij : i < j)
    {d : Demotion} (hd : d.filePath = file) : (a.demote baseDir d).results[j]? = a.results[j]? := by
  obtain ⟨k, hk, hindex⟩ := exists_indexOf?_le hi
  unfold Applying.demote
  rw [hd, hindex]
  dsimp only
  split
  · rfl
  · split
    · exact List.getElem?_modify_ne _ _ (Nat.ne_of_lt (Nat.lt_of_le_of_lt hk hij))
    · rfl

/-- Behind a result for its file, an added diagnostic changes nothing. -/
theorem getElem?_violate (hi : (a.results.map (LintResult.path baseDir))[i]? = some file) (hij : i < j)
    {v : Violation} (hv : v.filePath = file) : (a.violate baseDir v).results[j]? = a.results[j]? := by
  obtain ⟨k, hk, hindex⟩ := exists_indexOf?_le hi
  unfold Applying.violate
  rw [hv, hindex]
  dsimp only
  exact List.getElem?_modify_ne _ _ (Nat.ne_of_lt (Nat.lt_of_le_of_lt hk hij))

/-- Results whose sources go on as those of others have their paths. -/
theorem getElem?_path_of_prefix {results' : List LintResult}
    (hsources : results.map LintResult.source <+: results'.map LintResult.source)
    (hi : (results.map (LintResult.path baseDir))[i]? = some file) :
    (results'.map (LintResult.path baseDir))[i]? = some file := by
  have hpaths (rs : List LintResult) : rs.map (LintResult.path baseDir) =
      (rs.map LintResult.source).map fun source => Path.relativeTo baseDir (source.getD "") := by
    rw [List.map_map]
    rfl
  rw [hpaths] at hi ⊢
  obtain ⟨more, hmore⟩ := hsources
  have hlt := (List.getElem?_eq_some_iff.mp hi).1
  rw [← hmore, List.map_append, List.getElem?_append_left hlt]
  exact hi

/-- Changes that are all about one file leave the results behind the first one for it as they are. -/
theorem getElem?_apply (hi : (results.map (LintResult.path baseDir))[i]? = some file) (hij : i < j)
    {c : Changes} (hdemotions : ∀ d ∈ c.demotions, d.filePath = file)
    (hviolations : ∀ v ∈ c.violations, v.filePath = file) :
    (c.apply baseDir results).results[j]? = results[j]? := by
  have hdemote (ds : List Demotion) (hds : ∀ d ∈ ds, d.filePath = file) (a : Applying)
      (ha : (a.results.map (LintResult.path baseDir))[i]? = some file) :
      ((ds.foldl (Applying.demote baseDir) a).results.map (LintResult.path baseDir))[i]? = some file ∧
        (ds.foldl (Applying.demote baseDir) a).results[j]? = a.results[j]? := by
    induction ds generalizing a with
    | nil => exact ⟨ha, rfl⟩
    | cons d rest ih =>
      have hsources : a.results.map LintResult.source <+:
          (a.demote baseDir d).results.map LintResult.source :=
        sources_demote baseDir a d ▸ List.prefix_refl _
      have hkept := getElem?_path_of_prefix hsources ha
      obtain ⟨hpath, hsame⟩ := ih (fun e he => hds e (List.mem_cons_of_mem d he)) _ hkept
      exact ⟨hpath, hsame.trans (getElem?_demote ha hij (hds d List.mem_cons_self))⟩
  have hviolate (vs : List Violation) (hvs : ∀ v ∈ vs, v.filePath = file) (a : Applying)
      (ha : (a.results.map (LintResult.path baseDir))[i]? = some file) :
      (vs.foldl (Applying.violate baseDir) a).results[j]? = a.results[j]? := by
    induction vs generalizing a with
    | nil => rfl
    | cons v rest ih =>
      have hkept := getElem?_path_of_prefix (sources_violate baseDir a v) ha
      exact (ih (fun w hw => hvs w (List.mem_cons_of_mem v hw)) _ hkept).trans
        (getElem?_violate ha hij (hvs v List.mem_cons_self))
  obtain ⟨hpath, hsame⟩ := hdemote c.demotions hdemotions { results } hi
  exact (hviolate c.violations hviolations _ hpath).trans hsame

end Any

end Changes

end LintDebt
