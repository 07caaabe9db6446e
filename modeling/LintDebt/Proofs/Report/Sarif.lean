import LintDebt.Report.Format
import Mathlib.Data.List.Forall2
import Mathlib.Data.List.Induction
import Mathlib.Logic.ExistsUnique

/-!
# Rules and findings of a report

A report lists its rules apart from its findings, which name them.  The findings stand in the order of the
diagnostics, the rules in that of their names, and the two fit together: a finding names a rule that is listed,
and a rule is listed because a finding names it.

* `LintDebt.Sarif.sorted_insertRule`, `LintDebt.Sarif.find?_insertRule`: what putting in one rule leaves and adds.
* `LintDebt.Sarif.sorted_rulesOf`, `LintDebt.Sarif.find?_rulesOf`: the rules of findings, in the order of their
  names, each made from the first finding that names it.
* `LintDebt.Sarif.Finding.Tells`: what a finding tells of a diagnostic.
* `LintDebt.Sarif.Report.IsCoherent`: findings and rules fit together.
* `LintDebt.Sarif.report_coherent`: in every report they do, with todos and without them.
-/

namespace LintDebt.Sarif

/-! ## Rules -/

/-- The rule that a finding names, as it is listed when no finding named it before. -/
def Finding.rule (f : Finding) : Rule where
  id := f.ruleId
  level := f.level

/-- Rules stand in the order of their names, each name once. -/
def Sorted (rules : List Rule) : Prop :=
  rules.Pairwise fun a b => a.id < b.id

section

variable {rule : Rule} {rules : List Rule}

/-- The rules after one is put in are that one and those before. -/
theorem mem_of_mem_insertRule {other : Rule} (h : other ∈ insertRule rule rules) : other = rule ∨ other ∈ rules := by
  induction rules with
  | nil => exact Or.inl (List.mem_singleton.mp h)
  | cons r rest ih =>
    unfold insertRule at h
    split at h
    · exact List.mem_cons.mp h
    · split at h
      · exact Or.inr h
      · rcases List.mem_cons.mp h with rfl | h
        · exact Or.inr List.mem_cons_self
        · exact (ih h).imp_right (List.mem_cons_of_mem r)

/-- Putting in a rule keeps the order. -/
theorem sorted_insertRule (h : Sorted rules) : Sorted (insertRule rule rules) := by
  induction rules with
  | nil => exact List.pairwise_singleton _ _
  | cons r rest ih =>
    obtain ⟨hfirst, hrest⟩ := List.pairwise_cons.mp h
    unfold insertRule
    split
    · next hlt =>
      refine List.pairwise_cons.mpr ⟨fun other hother => ?_, h⟩
      rcases List.mem_cons.mp hother with rfl | hother
      · exact hlt
      · exact String.lt_trans hlt (hfirst other hother)
    · next hge =>
      split
      · exact h
      · next hne =>
        refine List.pairwise_cons.mpr ⟨fun other hother => ?_, ih hrest⟩
        rcases mem_of_mem_insertRule hother with rfl | hother
        · exact String.not_le.mp fun hle => hne (String.le_antisymm hle (String.not_lt.mp hge))
        · exact hfirst other hother

/-- A name in front of all rules is not among them. -/
theorem find?_eq_none_of_lt {id : String} (h : ∀ r ∈ rules, id < r.id) : rules.find? (·.id = id) = none := by
  rw [List.find?_eq_none]
  intro r hr hsame
  exact String.lt_irrefl id (of_decide_eq_true hsame ▸ h r hr)

/-- A rule that is put in is found by its name, unless one of that name was there; others are found as before. -/
theorem find?_insertRule (h : Sorted rules) (id : String) :
    (insertRule rule rules).find? (·.id = id) = (rules.find? (·.id = id)).or ([rule].find? (·.id = id)) := by
  induction rules with
  | nil => rfl
  | cons r rest ih =>
    obtain ⟨hfirst, hrest⟩ := List.pairwise_cons.mp h
    unfold insertRule
    split
    · next hlt =>
      by_cases hid : rule.id = id
      · have hbehind : ∀ other ∈ r :: rest, id < other.id := by
          rw [← hid]
          exact List.forall_mem_cons.mpr ⟨hlt, fun other hother => String.lt_trans hlt (hfirst other hother)⟩
        rw [find?_eq_none_of_lt hbehind, Option.none_or]
        simp [hid]
      · simp [List.find?_cons, hid]
    · split
      · next hsame =>
        by_cases hid : r.id = id
        · simp [hid]
        · simp [hsame, hid]
      · by_cases hid : r.id = id
        · simp [hid]
        · rw [List.find?_cons_of_neg (by simpa using hid), List.find?_cons_of_neg (by simpa using hid), ih hrest]

/-- In rules that are in order, a rule is found by its name. -/
theorem find?_of_mem (h : Sorted rules) (hmem : rule ∈ rules) : rules.find? (·.id = rule.id) = some rule := by
  induction rules with
  | nil => cases hmem
  | cons r rest ih =>
    obtain ⟨hfirst, hrest⟩ := List.pairwise_cons.mp h
    rcases List.mem_cons.mp hmem with rfl | hmem
    · simp
    · have hne : r.id ≠ rule.id := fun hsame => String.lt_irrefl rule.id (hsame ▸ hfirst rule hmem)
      rw [List.find?_cons_of_neg (by simpa using hne), ih hrest hmem]

end

/-- The rules of findings with one more at the end. -/
theorem rulesOf_append_singleton (findings : List Finding) (f : Finding) :
    rulesOf (findings ++ [f]) = insertRule f.rule (rulesOf findings) :=
  List.foldl_append

/-- The rules of findings stand in the order of their names. -/
theorem sorted_rulesOf (findings : List Finding) : Sorted (rulesOf findings) := by
  induction findings using List.reverseRecOn with
  | nil => exact List.Pairwise.nil
  | append_singleton findings f ih =>
    rw [rulesOf_append_singleton]
    exact sorted_insertRule ih

/-- A rule is found by its name as the first finding that names it gives it. -/
theorem find?_rulesOf (findings : List Finding) (id : String) :
    (rulesOf findings).find? (·.id = id) = (findings.find? (·.ruleId = id)).map Finding.rule := by
  induction findings using List.reverseRecOn with
  | nil => rfl
  | append_singleton findings f ih =>
    have hlast : [f.rule].find? (·.id = id) = ([f].find? (·.ruleId = id)).map Finding.rule := by
      by_cases hid : f.ruleId = id <;> simp [Finding.rule, hid]
    rw [rulesOf_append_singleton, find?_insertRule (sorted_rulesOf findings), ih, hlast, List.find?_append,
      Option.map_or]

/-! ## Findings -/

/-- The diagnostics of results, each with the path of its file. -/
def located (results : List LintResult) : List (String × Diagnostic) :=
  results.flatMap fun r => r.warnings.map fun d => (r.sourcePath, d)

/-- Without todos, results have their other diagnostics. -/
theorem located_withoutTodos (results : List LintResult) :
    located (results.map ReportFormat.withoutTodos) = (located results).filter fun x => x.2.severity ≠ .todo := by
  have htodo : ∀ d : Diagnostic, (!d.isTodo) = decide (d.severity ≠ .todo) := by
    intro d
    cases hseverity : d.severity <;> simp [Diagnostic.isTodo, hseverity]
  unfold located
  rw [List.flatMap_map, List.filter_flatMap]
  refine congrArg (List.flatMap · results) (funext fun r => ?_)
  rw [List.filter_map]
  exact congrArg (List.map fun d => (r.sourcePath, d)) (List.filter_congr fun d _ => htodo d)

/-- What a finding tells of a diagnostic in a file: its rule, which may be without a name, level, text and path, and
its stretch, exactly when it has a line.  Columns count from 1. -/
structure Finding.Tells (cwd : String) (x : String × Diagnostic) (f : Finding) : Prop where
  ruleId : f.ruleId = x.2.rule.getD ""
  level : f.level = Level.ofSeverity x.2.severity
  text : f.text = x.2.text
  uri : f.uri = Path.relativeTo cwd x.1
  region : f.region.isSome ↔ 0 < x.2.line
  stretch : ∀ region ∈ f.region, region.startLine = x.2.line ∧ 1 ≤ region.startColumn ∧
    (0 < x.2.column → region.startColumn = x.2.column) ∧
      region.endLine = x.2.endLine ∧ region.endColumn = x.2.endColumn

/-- The finding of a diagnostic in a file. -/
def findingAt (cwd : String) (x : String × Diagnostic) : Finding :=
  Finding.of (Path.relativeTo cwd x.1) x.2

/-- Columns count from 1: a column is at least that, and stays as it is unless it is 0. -/
theorem one_le_column (c : UInt32) : 1 ≤ max c 1 ∧ (0 < c → max c 1 = c) := by
  have hmax : max c 1 = if c ≤ 1 then 1 else c := rfl
  rw [hmax]
  split
  · next hle => exact ⟨UInt32.le_refl 1, fun hpos => UInt32.le_antisymm (UInt32.le_iff_toNat_le.mpr hpos) hle⟩
  · next hgt => exact ⟨UInt32.le_of_lt (UInt32.not_le.mp hgt), fun _ => rfl⟩

/-- The finding of a diagnostic tells of it. -/
theorem tells_findingAt (cwd : String) (x : String × Diagnostic) : Finding.Tells cwd x (findingAt cwd x) where
  ruleId := rfl
  level := rfl
  text := rfl
  uri := rfl
  region := by
    show (regionOf x.2).isSome ↔ 0 < x.2.line
    unfold regionOf
    split
    · next hzero => simp [hzero]
    · next hpos => simpa using UInt32.pos_iff_ne_zero.mpr hpos
  stretch := by
    intro region hregion
    replace hregion : region ∈ regionOf x.2 := hregion
    unfold regionOf at hregion
    split at hregion
    · cases hregion
    · obtain rfl := Option.mem_some.mp hregion
      exact ⟨rfl, (one_le_column x.2.column).1, (one_le_column x.2.column).2, rfl, rfl⟩

/-- The findings of a report are those of the diagnostics of the results. -/
theorem report_of_eq (cwd : String) (results : List LintResult) :
    Report.of cwd results =
      ⟨rulesOf ((located results).map (findingAt cwd)), (located results).map (findingAt cwd)⟩ := by
  have hfindings : results.flatMap (findingsOf cwd) = (located results).map (findingAt cwd) := by
    rw [located, List.map_flatMap]
    simp only [List.map_map]
    rfl
  rw [← hfindings]
  rfl

/-! ## Reports -/

/-- A report of diagnostics whose parts fit together.  Its findings tell of the diagnostics, in their order; its rules
have names in increasing order; a finding names just one rule, and a rule is named by a finding and has the level of
the first diagnostic with that rule. -/
structure Report.IsCoherent (cwd : String) (diagnostics : List (String × Diagnostic)) (report : Report) : Prop where
  findings : List.Forall₂ (Finding.Tells cwd) diagnostics report.findings
  sorted : report.rules.Pairwise fun a b => a.id < b.id
  refers : ∀ f ∈ report.findings, ∃! rule, rule ∈ report.rules ∧ rule.id = f.ruleId
  used : ∀ rule ∈ report.rules, ∃ f ∈ report.findings, f.ruleId = rule.id
  level : ∀ rule ∈ report.rules, ∃ x, diagnostics.find? (fun x => x.2.rule.getD "" = rule.id) = some x ∧
    rule.level = Level.ofSeverity x.2.severity

/-- A finding names just one of the rules of findings. -/
theorem existsUnique_rule {findings : List Finding} {f : Finding} (hf : f ∈ findings) :
    ∃! rule, rule ∈ rulesOf findings ∧ rule.id = f.ruleId := by
  obtain ⟨first, hfirst⟩ : ∃ first, findings.find? (·.ruleId = f.ruleId) = some first :=
    Option.isSome_iff_exists.mp (List.find?_isSome.mpr ⟨f, hf, by simp⟩)
  have hfind : (rulesOf findings).find? (·.id = f.ruleId) = some first.rule := by
    rw [find?_rulesOf, hfirst, Option.map_some]
  have hid : first.rule.id = f.ruleId := by simpa using List.find?_some hfind
  refine ⟨first.rule, ⟨List.mem_of_find?_eq_some hfind, hid⟩, ?_⟩
  rintro rule ⟨hrule, hsame⟩
  have hfound := find?_of_mem (sorted_rulesOf findings) hrule
  rw [hsame, hfind] at hfound
  exact (Option.some.inj hfound).symm

/-- A rule of findings is that of the first finding that names it. -/
theorem exists_of_mem_rulesOf {findings : List Finding} {rule : Rule} (hrule : rule ∈ rulesOf findings) :
    ∃ first, findings.find? (·.ruleId = rule.id) = some first ∧ first.rule = rule := by
  have hfind := find?_rulesOf findings rule.id
  rw [find?_of_mem (sorted_rulesOf findings) hrule] at hfind
  exact Option.map_eq_some_iff.mp hfind.symm

/-- The parts of a report of diagnostics fit together. -/
theorem isCoherent (cwd : String) (diagnostics : List (String × Diagnostic)) :
    Report.IsCoherent cwd diagnostics
      ⟨rulesOf (diagnostics.map (findingAt cwd)), diagnostics.map (findingAt cwd)⟩ where
  findings := List.forall₂_map_right_iff.mpr (List.forall₂_same.mpr fun x _ => tells_findingAt cwd x)
  sorted := sorted_rulesOf _
  refers := fun _ => existsUnique_rule
  used := by
    intro rule hrule
    obtain ⟨first, hfind, rfl⟩ := exists_of_mem_rulesOf hrule
    exact ⟨first, List.mem_of_find?_eq_some hfind, rfl⟩
  level := by
    intro rule hrule
    obtain ⟨first, hfind, rfl⟩ := exists_of_mem_rulesOf hrule
    rw [List.find?_map] at hfind
    obtain ⟨x, hx, rfl⟩ := Option.map_eq_some_iff.mp hfind
    exact ⟨x, hx, rfl⟩

/-- Only todos are notes. -/
theorem ofSeverity_eq_note_iff {s : Severity} : Level.ofSeverity s = .note ↔ s = .todo := by
  cases s <;> decide

/-- The report that is written for other programs: that of the diagnostics other than todos. -/
def written (cwd : String) (results : List LintResult) : Report :=
  Report.of cwd (results.map ReportFormat.withoutTodos)

/-- The findings and rules of a report fit together, for all diagnostics of the results.  In the report that is
written for other programs they do so for the diagnostics other than todos: none of its findings is a note, and each
of its rules is that of a diagnostic other than a todo. -/
theorem report_coherent (cwd : String) (results : List LintResult) :
    (Report.of cwd results).IsCoherent cwd (located results) ∧
      ReportFormat.sarif.render cwd results = (written cwd results).toJson.pretty ∧
      (written cwd results).IsCoherent cwd ((located results).filter fun x => x.2.severity ≠ .todo) ∧
      (∀ f ∈ (written cwd results).findings, f.level ≠ .note) ∧
      ∀ rule ∈ (written cwd results).rules,
        ∃ x ∈ located results, x.2.severity ≠ .todo ∧ x.2.rule.getD "" = rule.id := by
  let shown := (located results).filter fun x => x.2.severity ≠ .todo
  have hwritten : written cwd results = ⟨rulesOf (shown.map (findingAt cwd)), shown.map (findingAt cwd)⟩ := by
    rw [written, report_of_eq, located_withoutTodos]
  have hshown : ∀ x ∈ shown, x ∈ located results ∧ x.2.severity ≠ .todo := fun x hx => by
    simpa [shown] using List.mem_filter.mp hx
  have hcoherent := isCoherent cwd shown
  rw [← hwritten] at hcoherent
  refine ⟨?_, rfl, hcoherent, ?_, ?_⟩
  · rw [report_of_eq]
    exact isCoherent cwd (located results)
  · intro f hf hnote
    rw [hwritten] at hf
    obtain ⟨x, hx, rfl⟩ := List.mem_map.mp hf
    exact (hshown x hx).2 (ofSeverity_eq_note_iff.mp hnote)
  · intro rule hrule
    obtain ⟨x, hx, -⟩ := hcoherent.level rule hrule
    obtain ⟨hmem, hseverity⟩ := hshown x (List.mem_of_find?_eq_some hx)
    exact ⟨x, hmem, hseverity, by simpa using List.find?_some hx⟩

end LintDebt.Sarif
