import LintDebt.Proofs.Changes
import LintDebt.Proofs.Path

/-!
# The effect of changes on any results

Severities are set one after the other where the changes say, each at the first result for its file.  The
diagnostics of a file then follow at the end of the first result for it, and a file without one gets one
result of its own.

* `LintDebt.Applying.severityAt`: what becomes of the severity at one place.
* `LintDebt.Applying.newPaths`: the files that get a result of their own.
* `LintDebt.Applying.results_foldl_demote`, `applied_foldl_demote`: the results with all severities set.
* `LintDebt.Applying.foldl_violate`: the results with all diagnostics added.
* `LintDebt.Changes.apply_effect`: the results with all changes, and what is counted.
-/

namespace LintDebt

variable {results results' : List LintResult} {baseDir : String}

/-- A list keeps elements that are not changed. -/
theorem mapIdx_id {α : Type*} (l : List α) : (l.mapIdx fun _ x => x) = l :=
  List.mapIdx_eq_iff.mpr fun _ => (Option.map_id' ..).symm

/-! ## The place of a file -/

/-- The place of a file depends on the paths of the results only. -/
theorem LintResult.indexOf?_congr
    (hpaths : results'.map (path baseDir) = results.map (path baseDir)) (file : String) :
    indexOf? results' baseDir file = indexOf? results baseDir file := by
  have hmap (rs : List LintResult) :
      indexOf? rs baseDir file = (rs.map (path baseDir)).findIdx? (· == file) := by
    rw [List.findIdx?_map]
    rfl
  rw [hmap, hmap, hpaths]

/-- Every result for a file stands at a place. -/
theorem LintResult.indexOf?_eq_none_iff {file : String} :
    indexOf? results baseDir file = none ↔ ∀ r ∈ results, r.path baseDir ≠ file := by
  unfold indexOf?
  rw [List.findIdx?_eq_none_iff]
  simp [path]

/-- A place found is the place of a result. -/
theorem LintResult.indexOf?_lt {file : String} {i : Nat} (h : indexOf? results baseDir file = some i) :
    i < results.length :=
  (List.findIdx?_eq_some_iff_getElem.mp h).1

/-- One more result is found by its path, unless another one is found before it. -/
theorem LintResult.indexOf?_concat (results : List LintResult) (r : LintResult) (baseDir file : String) :
    indexOf? (results ++ [r]) baseDir file = (indexOf? results baseDir file).or
      (if r.path baseDir = file then some results.length else none) := by
  unfold indexOf? path
  rw [List.findIdx?_append]
  congr 1
  rw [List.findIdx?_cons, List.findIdx?_nil]
  by_cases hpath : Path.relativeTo baseDir r.sourcePath = file
  · rw [if_pos hpath, if_pos (beq_iff_eq.mpr hpath), Option.map_some, Nat.zero_add]
  · rw [if_neg hpath, if_neg (mt beq_iff_eq.mp hpath)]
    rfl

/-! ## Severities -/

namespace LintResult

variable {r : LintResult} {f g : Nat → Severity → Severity}

/-- A result whose severities are changed place by place. -/
def withSeverities (f : Nat → Severity → Severity) (r : LintResult) : LintResult :=
  { r with warnings := r.warnings.mapIdx fun j w => { w with severity := f j w.severity } }

/-- Severities can be changed at once that are changed one after the other. -/
theorem withSeverities_withSeverities (r : LintResult) :
    (r.withSeverities f).withSeverities g = r.withSeverities fun j s => g j (f j s) := by
  simp [withSeverities, List.mapIdx_mapIdx, Function.comp_def]

/-- A result with more diagnostics at its end. -/
def withDiagnostics (diagnostics : List Diagnostic) (r : LintResult) : LintResult :=
  { r with warnings := r.warnings ++ diagnostics }

/-- No more diagnostics leave a result as it is. -/
theorem withDiagnostics_nil (r : LintResult) : r.withDiagnostics [] = r := by
  unfold withDiagnostics
  rw [List.append_nil]

/-- A result keeps severities that are not changed. -/
theorem withSeverities_id (r : LintResult) : (r.withSeverities fun _ s => s) = r := by
  unfold withSeverities
  rw [mapIdx_id]

/-- A severity is set at one place. -/
theorem withSeverities_set (r : LintResult) (j : Nat) (s : Severity) :
    (r.withSeverities fun k old => if j = k then s else old) =
      { r with warnings := r.warnings.modify j ({ · with severity := s }) } := by
  unfold withSeverities
  congr 1
  apply List.ext_getElem?
  intro k
  rw [List.getElem?_mapIdx, List.getElem?_modify]
  refine Option.map_congr fun w _ => ?_
  by_cases hk : j = k <;> simp [hk]

@[simp]
theorem length_withSeverities : (r.withSeverities f).warnings.length = r.warnings.length := by
  simp [withSeverities]

end LintResult

namespace Applying

variable {demotions : List Demotion} {violations : List Violation} {a : Applying}

/-- Whether the diagnostic that a demotion names is there. -/
def hits (results : List LintResult) (baseDir : String) (d : Demotion) : Bool :=
  (LintResult.indexOf? results baseDir d.filePath).any fun i =>
    results[i]?.any fun r => decide (d.origin < r.warnings.length)

/-- What becomes of the severity at one place of a result when demotions are carried out in order. -/
def severityAt (results : List LintResult) (baseDir : String) (demotions : List Demotion) (i j : Nat)
    (severity : Severity) : Severity :=
  demotions.foldl (fun s d => if LintResult.indexOf? results baseDir d.filePath = some i ∧ d.origin = j
    then d.severity else s) severity

/-- The results with the severities that demotions set. -/
def demoteAll (results : List LintResult) (baseDir : String) (demotions : List Demotion) :
    List LintResult :=
  results.mapIdx fun i r => r.withSeverities (severityAt results baseDir demotions i)

/-- Setting severities leaves every result its path. -/
theorem map_path_demoteAll (results : List LintResult) (baseDir : String) (demotions : List Demotion) :
    (demoteAll results baseDir demotions).map (LintResult.path baseDir) =
      results.map (LintResult.path baseDir) := by
  apply List.ext_getElem? fun i => ?_
  rw [demoteAll, List.getElem?_map, List.getElem?_map, List.getElem?_mapIdx, Option.map_map]
  rfl

/-- Setting severities neither adds a diagnostic to a result nor takes one out. -/
theorem map_length_demoteAll (results : List LintResult) (baseDir : String)
    (demotions : List Demotion) : (demoteAll results baseDir demotions).map (·.warnings.length) =
    results.map (·.warnings.length) := by
  apply List.ext_getElem? fun i => ?_
  simp [demoteAll, Function.comp_def]

/-- Whether a diagnostic is there depends on the paths and the numbers of diagnostics only. -/
theorem hits_congr (hpaths : results'.map (LintResult.path baseDir) = results.map (LintResult.path baseDir))
    (hlengths : results'.map (·.warnings.length) = results.map (·.warnings.length)) (d : Demotion) :
    hits results' baseDir d = hits results baseDir d := by
  have hmap (rs : List LintResult) (i : Nat) :
      (rs[i]?.any fun r => decide (d.origin < r.warnings.length)) =
        (rs.map (·.warnings.length))[i]?.any fun n => decide (d.origin < n) := by
    rw [List.getElem?_map, Option.any_map]
  unfold hits
  simp only [hmap, LintResult.indexOf?_congr hpaths, hlengths]

/-- What becomes of a severity depends on the paths of the results only. -/
theorem severityAt_congr
    (hpaths : results'.map (LintResult.path baseDir) = results.map (LintResult.path baseDir)) :
    severityAt results' baseDir demotions = severityAt results baseDir demotions := by
  unfold severityAt
  simp only [LintResult.indexOf?_congr hpaths]

/-- One demotion sets the severity at the place it names, and none where it names no place. -/
theorem results_demote (baseDir : String) (a : Applying) (d : Demotion) :
    (a.demote baseDir d).results = demoteAll a.results baseDir [d] := by
  have hat (i : Nat) (r : LintResult) : r.withSeverities (severityAt a.results baseDir [d] i) =
      if LintResult.indexOf? a.results baseDir d.filePath = some i then
        { r with warnings := r.warnings.modify d.origin ({ · with severity := d.severity }) }
      else r := by
    unfold severityAt
    simp only [List.foldl_cons, List.foldl_nil]
    by_cases hi : LintResult.indexOf? a.results baseDir d.filePath = some i
    · simp only [hi, true_and, if_true]
      exact r.withSeverities_set d.origin d.severity
    · simp only [hi, false_and, if_false]
      exact r.withSeverities_id
  unfold Applying.demote demoteAll
  simp only [hat]
  cases hindex : LintResult.indexOf? a.results baseDir d.filePath with
  | none => simp [mapIdx_id]
  | some i =>
    have hlt := LintResult.indexOf?_lt hindex
    dsimp only
    rw [List.getElem?_eq_getElem hlt]
    dsimp only
    apply List.ext_getElem? fun k => ?_
    rw [List.getElem?_mapIdx]
    by_cases hk : i = k
    · subst hk
      split
      · rw [List.getElem?_modify_eq, List.getElem?_eq_getElem hlt]
        simp
      · next horigin =>
        rw [List.getElem?_eq_getElem hlt]
        simp [List.modify_eq_self (Nat.le_of_not_lt horigin)]
    · have hother : (some i = some k) = False := by simp [hk]
      simp only [hother, if_false, Option.map_id']
      split
      · exact List.getElem?_modify_ne _ _ hk
      · rfl

/-- Whether a demotion is counted depends on whether its diagnostic is there. -/
theorem applied_demote (a : Applying) (d : Demotion) :
    (a.demote baseDir d).applied = if hits a.results baseDir d
      then { a.applied with demoted := a.applied.demoted + 1 }
      else { a.applied with skipped := a.applied.skipped + 1 } := by
  unfold demote hits
  dsimp only
  cases hindex : LintResult.indexOf? a.results baseDir d.filePath with
  | none => rfl
  | some i =>
    rw [Option.any_some]
    dsimp only
    cases hr : a.results[i]? with
    | none => rfl
    | some r =>
      rw [Option.any_some]
      dsimp only
      by_cases horigin : d.origin < r.warnings.length <;> simp [horigin]

/-- Demotions set the severities that they name, in order. -/
theorem results_foldl_demote (baseDir : String) (demotions : List Demotion) (a : Applying) :
    (demotions.foldl (Applying.demote baseDir) a).results =
      demoteAll a.results baseDir demotions := by
  induction demotions generalizing a with
  | nil =>
    have hkeep (i : Nat) (r : LintResult) :
        r.withSeverities (severityAt a.results baseDir [] i) = r := r.withSeverities_id
    simp only [List.foldl_nil, demoteAll, hkeep, mapIdx_id]
  | cons d rest ih =>
    have hstep := results_demote baseDir a d
    have hpaths := hstep ▸ map_path_demoteAll a.results baseDir [d]
    rw [List.foldl_cons, ih, demoteAll, severityAt_congr hpaths, hstep, demoteAll, demoteAll,
      List.mapIdx_mapIdx]
    refine List.mapIdx_eq_mapIdx_iff.mpr fun i hi => ?_
    exact LintResult.withSeverities_withSeverities (f := severityAt a.results baseDir [d] i)
      (g := severityAt a.results baseDir rest i) a.results[i]

/-- Each demotion is counted once, as carried out or as skipped. -/
theorem applied_foldl_demote (demotions : List Demotion) (a : Applying) :
    (demotions.foldl (Applying.demote baseDir) a).applied = { a.applied with
      demoted := a.applied.demoted + demotions.countP (hits a.results baseDir)
      skipped := a.applied.skipped + demotions.countP fun d => !hits a.results baseDir d } := by
  induction demotions generalizing a with
  | nil => rfl
  | cons d rest ih =>
    have hstep := results_demote baseDir a d
    have hhits : hits (a.demote baseDir d).results baseDir = hits a.results baseDir := funext
      (hits_congr (hstep ▸ map_path_demoteAll _ _ _) (hstep ▸ map_length_demoteAll _ _ _))
    rw [List.foldl_cons, ih, hhits, applied_demote]
    by_cases hd : hits a.results baseDir d <;> simp [hd, Nat.add_assoc, Nat.add_comm 1]

/-! ## Diagnostics -/

/-- The diagnostics that violations add to the result at one place. -/
def added (results : List LintResult) (baseDir : String) (violations : List Violation) (i : Nat) :
    List Diagnostic :=
  (violations.filter fun v => LintResult.indexOf? results baseDir v.filePath = some i).map
    Violation.diagnostic

/-- The files of violations that have no result, in the order in which they come up. -/
def newPaths (results : List LintResult) (baseDir : String) (violations : List Violation) :
    List String :=
  ((violations.map Violation.filePath).filter fun path =>
    (LintResult.indexOf? results baseDir path).isNone).eraseDups

/-- The result for the violations of a file that had none. -/
def created (baseDir : String) (violations : List Violation) (path : String) : LintResult where
  source := some (Path.join baseDir path)
  warnings := (violations.filter fun v => v.filePath = path).map Violation.diagnostic

/-- The results with the diagnostics of violations. -/
def violateAll (results : List LintResult) (baseDir : String) (violations : List Violation) :
    List LintResult :=
  results.mapIdx (fun i r => r.withDiagnostics (added results baseDir violations i)) ++
    (newPaths results baseDir violations).map (created baseDir violations)

/-- A file gets a result of its own exactly when a violation is about it and no result is. -/
theorem mem_newPaths {path : String} : path ∈ newPaths results baseDir violations ↔
    (∃ v ∈ violations, v.filePath = path) ∧ ∀ r ∈ results, r.path baseDir ≠ path := by
  unfold newPaths
  rw [List.mem_eraseDups, List.mem_filter, List.mem_map, Option.isNone_iff_eq_none,
    LintResult.indexOf?_eq_none_iff]

/-- No file gets two results of its own. -/
theorem nodup_newPaths : (newPaths results baseDir violations).Nodup := by
  unfold newPaths
  generalize (violations.map Violation.filePath).filter _ = paths
  induction hn : paths.length using Nat.strongRecOn generalizing paths with
  | ind n ih =>
    cases paths with
    | nil => exact List.nodup_nil
    | cons path rest =>
      have hshorter : (rest.filter fun p => !p == path).length < n := by
        have hle := List.length_filter_le (fun p => !p == path) rest
        rw [List.length_cons] at hn
        omega
      rw [List.eraseDups_cons, List.nodup_cons]
      exact ⟨by simp [List.mem_eraseDups], ih _ hshorter _ rfl⟩

/-- The result for a path that leads back is a result for that path. -/
theorem path_created {path : String} (hpath : Path.relativeTo baseDir (Path.join baseDir path) = path) :
    (created baseDir violations path).path baseDir = path := hpath

/-- The result of a file does not depend on violations of others. -/
theorem created_cons_of_ne {v : Violation} {path : String} (h : v.filePath ≠ path) :
    created baseDir (v :: violations) path = created baseDir violations path := by
  simp [created, h]

/-- What is added where depends on the paths of the results only. -/
theorem added_congr
    (hpaths : results'.map (LintResult.path baseDir) = results.map (LintResult.path baseDir)) :
    added results' baseDir violations = added results baseDir violations := by
  unfold added
  simp only [LintResult.indexOf?_congr hpaths]

/-- And so does which files get a result of their own. -/
theorem newPaths_congr
    (hpaths : results'.map (LintResult.path baseDir) = results.map (LintResult.path baseDir)) :
    newPaths results' baseDir violations = newPaths results baseDir violations := by
  unfold newPaths
  simp only [LintResult.indexOf?_congr hpaths]

/-- A violation of a file that has a result is added to it. -/
theorem violateAll_of_some (violations : List Violation) {v : Violation} {i : Nat}
    (hi : LintResult.indexOf? results baseDir v.filePath = some i) :
    violateAll (results.modify i (·.withDiagnostics [v.diagnostic])) baseDir violations =
        violateAll results baseDir (v :: violations) ∧
      newPaths (results.modify i (·.withDiagnostics [v.diagnostic])) baseDir violations =
        newPaths results baseDir (v :: violations) := by
  have hpaths : (results.modify i (·.withDiagnostics [v.diagnostic])).map (LintResult.path baseDir) =
      results.map (LintResult.path baseDir) := by
    apply List.ext_getElem? fun k => ?_
    rw [List.getElem?_map, List.getElem?_map, List.getElem?_modify]
    cases results[k]? with
    | none => rfl
    | some r => by_cases hk : i = k <;> simp only [hk, if_true, if_false] <;> rfl
  have hnew : newPaths results baseDir (v :: violations) = newPaths results baseDir violations := by
    simp [newPaths, hi]
  refine ⟨?_, (newPaths_congr hpaths).trans hnew.symm⟩
  unfold violateAll
  rw [newPaths_congr hpaths, added_congr hpaths, hnew]
  congr 1
  · apply List.ext_getElem? fun k => ?_
    rw [List.getElem?_mapIdx, List.getElem?_mapIdx, List.getElem?_modify]
    cases results[k]? with
    | none => rfl
    | some r => by_cases hk : i = k <;> simp [added, LintResult.withDiagnostics, hi, hk]
  · refine List.map_congr_left fun path hpath => ?_
    rw [created_cons_of_ne]
    rintro rfl
    obtain ⟨-, hno⟩ := mem_newPaths.mp hpath
    rw [LintResult.indexOf?_eq_none_iff.mpr hno] at hi
    cases hi

/-- A violation of a file that has no result starts one, which later ones of the file go on with. -/
theorem violateAll_of_none (violations : List Violation) {v : Violation}
    (hv : Path.relativeTo baseDir (Path.join baseDir v.filePath) = v.filePath)
    (hnone : LintResult.indexOf? results baseDir v.filePath = none) :
    violateAll (results ++ [created baseDir [v] v.filePath]) baseDir violations =
        violateAll results baseDir (v :: violations) ∧
      newPaths results baseDir (v :: violations) =
        v.filePath :: newPaths (results ++ [created baseDir [v] v.filePath]) baseDir violations := by
  -- the new result is found by its path, and by nothing else
  have hindex (path : String) :=
    LintResult.indexOf?_concat results (created baseDir [v] v.filePath) baseDir path
  simp only [path_created hv] at hindex
  have hnew : newPaths results baseDir (v :: violations) =
      v.filePath :: newPaths (results ++ [created baseDir [v] v.filePath]) baseDir violations := by
    unfold newPaths
    rw [List.map_cons, List.filter_cons_of_pos (by rw [hnone]; rfl), List.eraseDups_cons,
      List.filter_filter]
    congr 2
    refine List.filter_congr fun path _ => ?_
    rw [hindex]
    rcases eq_or_ne v.filePath path with rfl | hpath
    · simp
    · cases LintResult.indexOf? results baseDir path <;> simp [hpath, hpath.symm]
  refine ⟨?_, hnew⟩
  have hfront (i : Nat) (hi : i < results.length) :
      added (results ++ [created baseDir [v] v.filePath]) baseDir violations i =
        added results baseDir (v :: violations) i := by
    unfold added
    rw [List.filter_cons_of_neg (by simp [hnone])]
    congr 1
    refine List.filter_congr fun w _ => ?_
    rw [hindex]
    cases LintResult.indexOf? results baseDir w.filePath <;>
      by_cases hpath : v.filePath = w.filePath <;> simp [hpath, Nat.ne_of_gt hi]
  have hlast : added (results ++ [created baseDir [v] v.filePath]) baseDir violations results.length =
      (violations.filter fun w => w.filePath = v.filePath).map Violation.diagnostic := by
    unfold added
    congr 1
    refine List.filter_congr fun w _ => ?_
    rw [hindex]
    cases hw : LintResult.indexOf? results baseDir w.filePath with
    | none => simp [eq_comm]
    | some k =>
      have hne : w.filePath ≠ v.filePath := fun h => by rw [h, hnone] at hw; cases hw
      have hk := LintResult.indexOf?_lt hw
      simp [hne, Nat.ne_of_lt hk]
  have hfirst : (created baseDir [v] v.filePath).withDiagnostics
      ((violations.filter fun w => w.filePath = v.filePath).map Violation.diagnostic) =
        created baseDir (v :: violations) v.filePath := by
    simp [created, LintResult.withDiagnostics]
  unfold violateAll
  rw [hnew, List.mapIdx_concat, hlast, hfirst, List.map_cons, List.append_assoc, List.singleton_append]
  congr 1
  · refine List.mapIdx_eq_mapIdx_iff.mpr fun i hi => ?_
    rw [hfront i hi]
  · congr 1
    refine List.map_congr_left fun path hpath => ?_
    obtain ⟨-, hno⟩ := mem_newPaths.mp hpath
    rw [created_cons_of_ne]
    rw [← path_created hv]
    exact hno _ (List.mem_append_right _ List.mem_cons_self)

/-- Violations add their diagnostics to the results for their files, and each file that has none gets one
result. -/
theorem foldl_violate (violations : List Violation) (a : Applying)
    (hpaths : ∀ v ∈ violations, Path.relativeTo baseDir (Path.join baseDir v.filePath) = v.filePath) :
    violations.foldl (violate baseDir) a =
      { results := violateAll a.results baseDir violations
        applied := { a.applied with
          violations := a.applied.violations + violations.length
          createdResults := a.applied.createdResults + (newPaths a.results baseDir violations).length } } := by
  induction violations generalizing a with
  | nil =>
    have hkeep (i : Nat) (r : LintResult) : r.withDiagnostics (added a.results baseDir [] i) = r :=
      r.withDiagnostics_nil
    simp [violateAll, hkeep, mapIdx_id, newPaths]
  | cons v rest ih =>
    have hv := hpaths v List.mem_cons_self
    rw [List.foldl_cons, ih _ fun w hw => hpaths w (List.mem_cons_of_mem v hw)]
    unfold violate
    cases hindex : LintResult.indexOf? a.results baseDir v.filePath with
    | some i =>
      obtain ⟨hresults, hnew⟩ := violateAll_of_some rest hindex
      unfold LintResult.withDiagnostics at hresults hnew
      dsimp only
      rw [hresults, hnew, List.length_cons, Nat.add_assoc, Nat.add_comm 1]
    | none =>
      have hcreated : created baseDir [v] v.filePath =
          { source := some (Path.join baseDir v.filePath), warnings := [v.diagnostic] } := by
        simp [created]
      obtain ⟨hresults, hnew⟩ := violateAll_of_none rest hv hindex
      rw [hcreated] at hresults hnew
      dsimp only
      rw [hresults, hnew, List.length_cons, List.length_cons, Nat.add_assoc, Nat.add_assoc,
        Nat.add_comm 1, Nat.add_comm 1]

end Applying

/-! ## All changes -/

namespace Changes

open Applying

/-- Changes whose violations are about files as seen from the base directory are applied as follows.  Each
severity becomes what the demotions make of it, one after the other: each demotion is about the first result
for its file as it was before, and counts as carried out when that result has the diagnostic, as skipped
otherwise.  The diagnostics of one file follow in order at the end of the first result for it; a file without
a result gets one, which is found under the path of the file again.  Nothing else changes, and no other result
is added. -/
theorem apply_effect (c : Changes) (baseDir : String) (results : List LintResult)
    (hpaths : ∀ v ∈ c.violations, ∃ source, v.filePath = Path.relativeTo baseDir source) :
    (c.apply baseDir results).results =
        (results.mapIdx fun i r => { r with
          warnings := (r.warnings.mapIdx fun j w =>
              { w with severity := severityAt results baseDir c.demotions i j w.severity }) ++
            added results baseDir c.violations i }) ++
        (newPaths results baseDir c.violations).map (created baseDir c.violations) ∧
      (c.apply baseDir results).applied = {
        demoted := c.demotions.countP (hits results baseDir)
        skipped := c.demotions.countP fun d => !hits results baseDir d
        violations := c.violations.length
        createdResults := (newPaths results baseDir c.violations).length } ∧
      (c.apply baseDir results).applied.demoted + (c.apply baseDir results).applied.skipped =
        c.demotions.length ∧
      (c.apply baseDir results).results.length =
        results.length + (c.apply baseDir results).applied.createdResults ∧
      (newPaths results baseDir c.violations).Nodup ∧
      ∀ path, path ∈ newPaths results baseDir c.violations ↔
        (∃ v ∈ c.violations, v.filePath = path) ∧ (∀ r ∈ results, r.path baseDir ≠ path) ∧
          (created baseDir c.violations path).path baseDir = path := by
  have hback : ∀ v ∈ c.violations,
      Path.relativeTo baseDir (Path.join baseDir v.filePath) = v.filePath := by
    intro v hv
    obtain ⟨source, hsource⟩ := hpaths v hv
    rw [hsource, Path.relativeTo_join_relativeTo]
  have hdemoted := Applying.results_foldl_demote baseDir c.demotions { results }
  have hsame := map_path_demoteAll results baseDir c.demotions
  have happly : c.apply baseDir results = {
      results := violateAll (demoteAll results baseDir c.demotions) baseDir c.violations
      applied := {
        demoted := c.demotions.countP (hits results baseDir)
        skipped := c.demotions.countP fun d => !hits results baseDir d
        violations := c.violations.length
        createdResults := (newPaths results baseDir c.violations).length } } := by
    unfold apply
    rw [foldl_violate _ _ hback, Applying.applied_foldl_demote, hdemoted, newPaths_congr hsame]
    simp
  have hresults : (c.apply baseDir results).results = (results.mapIdx fun i r =>
        (r.withSeverities (severityAt results baseDir c.demotions i)).withDiagnostics
          (added results baseDir c.violations i)) ++
      (newPaths results baseDir c.violations).map (created baseDir c.violations) := by
    rw [happly]
    dsimp only
    rw [violateAll, added_congr hsame, newPaths_congr hsame, demoteAll, List.mapIdx_mapIdx]
    rfl
  refine ⟨hresults, by rw [happly], ?_, ?_, nodup_newPaths, fun path => ?_⟩
  · rw [happly, List.length_eq_countP_add_countP (hits results baseDir)]
    simp
  · rw [hresults, happly, List.length_append, List.length_mapIdx, List.length_map]
  · rw [mem_newPaths]
    refine ⟨fun ⟨hv, hno⟩ => ⟨hv, hno, ?_⟩, fun ⟨hv, hno, _⟩ => ⟨hv, hno⟩⟩
    obtain ⟨v, hv, rfl⟩ := hv
    exact path_created (hback v hv)

/-- The changes of a small example: a severity to set and one that is not there, and diagnostics for a file
with a result and, twice, for one without. -/
def exampleChanges : Changes where
  demotions := [⟨"a.css", 0, .todo⟩, ⟨"a.css", 1, .warning⟩]
  violations := [⟨"b.css", { severity := .error }⟩, ⟨"a.css", { severity := .error }⟩,
    ⟨"b.css", { severity := .warning }⟩]

/-- The results of the example. -/
def exampleResults : List LintResult :=
  [{ source := some "/repo/a.css", warnings := [{ severity := .error }] }]

/-- One severity is set and one skipped, and the file without a result gets one for both diagnostics. -/
theorem apply_effect_of_example :
    (∀ v ∈ exampleChanges.violations, ∃ source, v.filePath = Path.relativeTo "/repo" source) ∧
      (exampleChanges.apply "/repo" exampleResults).results =
        [{ source := some "/repo/a.css", warnings := [{ severity := .todo }, { severity := .error }] },
          { source := some "/repo/b.css",
            warnings := [{ severity := .error }, { severity := .warning }] }] ∧
      (exampleChanges.apply "/repo" exampleResults).applied =
        { demoted := 1, skipped := 1, violations := 3, createdResults := 1 } := by
  have hpaths : ∀ v ∈ exampleChanges.violations,
      ∃ source, v.filePath = Path.relativeTo "/repo" source := by
    have hback : ∀ v ∈ exampleChanges.violations,
        v.filePath = Path.relativeTo "/repo" ("/repo/" ++ v.filePath) := by decide +kernel
    exact fun v hv => ⟨_, hback v hv⟩
  obtain ⟨hresults, happlied, -⟩ := apply_effect exampleChanges "/repo" exampleResults hpaths
  refine ⟨hpaths, hresults.trans ?_, happlied.trans ?_⟩
  · decide +kernel
  · decide +kernel

end Changes

end LintDebt
