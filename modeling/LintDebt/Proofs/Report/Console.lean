import Mathlib.Algebra.Ring.Nat
import Mathlib.Data.List.Induction
import LintDebt.Report.Console

/-!
# What a report on a console counts

A report ends with the counts of what it shows, when it shows anything.  A shown diagnostic never gets
lost on the way there: its sign stands in the tables, so the report is not taken for an empty one.

* `LintDebt.Text.allBlank_trim`: trimming takes away nothing that shows.
* `LintDebt.Table.allBlank_render`: a table shows something when it has a row.
* `LintDebt.Console.counts_eq_of_visible`: the pass that counts goes over all diagnostics, and counts
  those that are shown.
* `LintDebt.Console.tally`, `LintDebt.Console.render_eq`: a report states the counts of what it shows,
  if there are any.
* `LintDebt.Console.errors_counts`, `LintDebt.Console.errors_counts_pos_iff`: which errors are counted.
-/

namespace LintDebt

/-! ## Texts that show something -/

namespace Text

/-- Texts after one another show nothing when none of them does. -/
theorem allBlank_append (s t : String) : allBlank (s ++ t) = (allBlank s && allBlank t) := by
  rw [allBlank, String.toList_append, List.all_append]
  rfl

/-- Texts after one another show something when one of them does. -/
theorem allBlank_join_eq_false {pieces : List String} {s : String} (hs : s ∈ pieces)
    (h : allBlank s = false) : allBlank (String.join pieces) = false := by
  induction pieces with
  | nil => cases hs
  | cons piece pieces ih =>
    rw [String.join_cons, allBlank_append]
    rcases List.mem_cons.mp hs with rfl | hs
    · rw [h, Bool.false_and]
    · rw [ih hs, Bool.and_false]

/-- What is left behind the blanks shows nothing when all is blank. -/
theorem all_dropWhile_isBlank (s : List Char) : (s.dropWhile isBlank).all isBlank = s.all isBlank := by
  calc (s.dropWhile isBlank).all isBlank = (s.takeWhile isBlank ++ s.dropWhile isBlank).all isBlank := by
        rw [List.all_append, List.all_takeWhile, Bool.true_and]
    _ = s.all isBlank := by rw [List.takeWhile_append_dropWhile]

/-- Trimming takes away nothing that shows. -/
theorem allBlank_trimEnd (s : String) : allBlank (trimEnd s) = allBlank s := by
  rw [allBlank, trimEnd, String.toList_ofList, List.all_reverse, all_dropWhile_isBlank, List.all_reverse]
  rfl

/-- Trimming takes away nothing that shows. -/
theorem allBlank_trim (s : String) : allBlank (trim s) = allBlank s := by
  rw [trim, allBlank_trimEnd, allBlank, trimStart, String.toList_ofList, all_dropWhile_isBlank]
  rfl

end Text

/-- A text in a style shows something when the text does. -/
theorem Style.allBlank_paint_eq_false {s : String} (h : Text.allBlank s = false) (style : Style)
    (color : Bool) : Text.allBlank (style.paint color s) = false := by
  unfold paint
  split
  · rw [Text.allBlank_append, Text.allBlank_append, h, Bool.and_false, Bool.false_and]
  · exact h

/-- The sign of a severity shows. -/
theorem Severity.allBlank_symbol (s : Severity) : Text.allBlank s.symbol = false := by
  cases s <;> decide +kernel

namespace Table

/-- The first line of a row shows its sign. -/
theorem allBlank_firstLine (color : Bool) (w : Widths) (room : Nat) (row : Row) (chunk : List Char) :
    Text.allBlank (firstLine color w room row chunk) = false := by
  have hsign := Style.allBlank_paint_eq_false row.severity.allBlank_symbol row.severity.style color
  simp only [firstLine, lead, symbolCell, Severity.paintedSymbol, Text.allBlank_append, hsign,
    Bool.and_false, Bool.false_and]

/-- A table shows something when it has a row. -/
theorem allBlank_render (p : Presentation) (source : String) {diagnostics : List Diagnostic}
    (h : diagnostics ≠ []) : Text.allBlank (render p source diagnostics) = false := by
  obtain ⟨row, others, hrows⟩ : ∃ row others, rows diagnostics = row :: others := by
    apply List.exists_cons_of_ne_nil
    intro hnil
    have hlength := congrArg List.length hnil
    rw [rows, List.length_map, List.length_mergeSort] at hlength
    exact h (List.eq_nil_of_length_eq_zero hlength)
  have hempty : diagnostics.isEmpty = false := List.isEmpty_eq_false_iff.mpr h
  have hline : ∃ line ∈ tableLines p source diagnostics, Text.allBlank line = false := by
    unfold tableLines
    dsimp only
    rw [hrows, List.flatMap_cons, rowLines]
    exact ⟨_, List.mem_append_right _ (List.mem_append_left _ List.mem_cons_self),
      (Text.allBlank_trimEnd _).trans (allBlank_firstLine _ _ _ row _)⟩
  obtain ⟨line, hmem, hshows⟩ := hline
  rw [render, hempty, if_neg Bool.false_ne_true]
  apply Text.allBlank_join_eq_false (List.mem_map.mpr ⟨line, List.mem_cons_of_mem "" hmem, rfl⟩)
  rw [Text.allBlank_append, hshows, Bool.false_and]

end Table

namespace Console

variable {o : Options} {p : Presentation} {results : List LintResult}

/-! ## The counts -/

/-- The counts of some diagnostics. -/
def Counts.of (diagnostics : List Diagnostic) : Counts :=
  let number (s : Severity) := diagnostics.countP fun d => d.severity == s
  ⟨number .error, number .warning, number .todo⟩

/-- One more diagnostic adds to the counts what it does in a report that includes todos. -/
theorem Counts.of_append_singleton (diagnostics : List Diagnostic) (d : Diagnostic) :
    of (diagnostics ++ [d]) = (of diagnostics).add true d.severity := by
  simp only [of, List.countP_append, List.countP_singleton]
  cases d.severity <;> rfl

/-- Counting diagnostics one after another gives their counts. -/
theorem Counts.foldl_add_eq_of (diagnostics : List Diagnostic) :
    diagnostics.foldl (fun c d => c.add true d.severity) {} = of diagnostics := by
  induction diagnostics using List.reverseRecOn with
  | nil => rfl
  | append_singleton diagnostics d ih =>
    rw [of_append_singleton, ← ih, List.foldl_append]
    rfl

/-- A diagnostic is counted when it is shown. -/
theorem Counts.add_eq_ite_shows (includeTodos : Bool) (c : Counts) (s : Severity) :
    c.add includeTodos s = if shows includeTodos s then c.add true s else c := by
  cases s <;> cases includeTodos <;> rfl

/-- A report goes over all diagnostics, and counts those that it shows. -/
theorem counts_eq_of_visible (o : Options) (results : List LintResult) :
    counts o results =
      Counts.of ((results.filter fun r => !r.ignored).flatMap (visible o.includeTodos)) := by
  rw [← Counts.foldl_add_eq_of, List.foldl_flatMap]
  unfold counts visible
  simp only [List.foldl_filter, ← Counts.add_eq_ite_shows]

/-- The counts as a report states them: when there is nothing to count, they are left out. -/
def tally (includeTodos : Bool) (c : Counts) : String :=
  if c.problems + c.todos = 0 then "" else c.text includeTodos ++ "\n\n"

/-- How many errors a result has as a report shows it: a parse error is one. -/
def errorsShown (r : LintResult) : Nat :=
  r.warnings.countP Diagnostic.isError + r.parseErrors.length

/-- The errors among the shown diagnostics of a result are its errors and its parse errors. -/
theorem countP_visible (includeTodos : Bool) (r : LintResult) :
    (visible includeTodos r).countP (·.severity == .error) = errorsShown r := by
  have hshown : ∀ d : Diagnostic, ((d.severity == .error) && shows includeTodos d.severity) = d.isError := by
    intro d
    unfold Diagnostic.isError
    cases d.severity <;> rfl
  have hparse : (r.parseErrors.map ParseError.toDiagnostic).countP Diagnostic.isError =
      r.parseErrors.length := by
    rw [List.countP_map]
    exact List.countP_eq_length.mpr fun _ _ => rfl
  unfold visible allDiagnostics
  rw [List.countP_filter]
  simp only [hshown]
  rw [List.countP_append, hparse]
  rfl

/-- A report counts the errors and the parse errors of the results that are not ignored. -/
theorem errors_counts (o : Options) (results : List LintResult) :
    (counts o results).errors = ((results.filter fun r => !r.ignored).map errorsShown).sum := by
  rw [counts_eq_of_visible]
  show List.countP _ (List.flatMap _ _) = _
  rw [List.countP_flatMap]
  exact congrArg List.sum (List.map_congr_left fun r _ => countP_visible o.includeTodos r)

/-- A result has errors to show when it has one, or has a parse error. -/
theorem errorsShown_pos_iff (r : LintResult) :
    0 < errorsShown r ↔ r.hasLiveErrors = true ∨ r.parseErrors ≠ [] := by
  rw [errorsShown, Nat.add_pos_iff_pos_or_pos, List.countP_pos_iff, List.length_pos_iff,
    LintResult.hasLiveErrors, List.any_eq_true]

/-- A report counts an error when a result that is not ignored has one, or has a parse error. -/
theorem errors_counts_pos_iff :
    0 < (counts o results).errors ↔
      ∃ r ∈ results, r.ignored = false ∧ (r.hasLiveErrors = true ∨ r.parseErrors ≠ []) := by
  rw [errors_counts, List.sum_pos_iff_exists_pos_nat]
  constructor
  · rintro ⟨_, hmem, hpos⟩
    obtain ⟨r, hr, rfl⟩ := List.mem_map.mp hmem
    obtain ⟨hresult, hnot⟩ := List.mem_filter.mp hr
    exact ⟨r, hresult, by simpa using hnot, (errorsShown_pos_iff r).mp hpos⟩
  · rintro ⟨r, hresult, hnot, herrors⟩
    have hr : r ∈ results.filter fun r => !r.ignored :=
      List.mem_filter.mpr ⟨hresult, by rw [hnot, Bool.not_false]⟩
    exact ⟨_, List.mem_map.mpr ⟨r, hr, rfl⟩, (errorsShown_pos_iff r).mpr herrors⟩

/-- A report that has something to count shows something. -/
theorem body_ne_empty (h : (counts o results).problems + (counts o results).todos ≠ 0) :
    body o p results ≠ "" := by
  have hvisible : ∃ r ∈ results.filter fun r => !r.ignored, visible o.includeTodos r ≠ [] := by
    refine Classical.byContradiction fun hnone => ?_
    have hnil : (results.filter fun r => !r.ignored).flatMap (visible o.includeTodos) = [] :=
      List.flatMap_eq_nil_iff.mpr fun r hr =>
        Classical.byContradiction fun hne => hnone ⟨r, hr, hne⟩
    rw [counts_eq_of_visible, hnil] at h
    exact h rfl
  obtain ⟨r, hr, hne⟩ := hvisible
  have htables : Text.allBlank (String.join ((results.filter fun r => !r.ignored).map fun r =>
      Table.render p r.sourcePath (visible o.includeTodos r))) = false :=
    Text.allBlank_join_eq_false (List.mem_map.mpr ⟨r, hr, rfl⟩) (Table.allBlank_render p _ hne)
  intro hempty
  have hblank : Text.allBlank (body o p results) = false := by
    unfold body
    rw [Text.allBlank_trim, Text.allBlank_append, htables, Bool.and_false]
  rw [hempty, Text.allBlank_empty] at hblank
  exact Bool.noConfusion hblank

/-- What a report shows above its counts. -/
def shownBody (body : String) : String :=
  if body.isEmpty then "" else "\n" ++ body ++ "\n\n"

/-- The summary that a report states, if it is to. -/
def summaryText (o : Options) : String :=
  match o.summary with
  | some summary => if o.updating then summary.text else ""
  | none => ""

/-- The counts are stated whether or not the text above them is checked for being empty, when there is
some text if there is something to count. -/
theorem shownBody_append_tally {body : String} {includeTodos : Bool} {c : Counts}
    (h : c.problems + c.todos ≠ 0 → body ≠ "") :
    (if body.isEmpty then "" else "\n" ++ body ++ "\n\n" ++
      if c.problems + c.todos > 0 then c.text includeTodos ++ "\n\n" else "") =
        shownBody body ++ tally includeTodos c := by
  unfold shownBody tally
  by_cases hcounts : c.problems + c.todos = 0
  · rw [if_pos hcounts, if_neg (Nat.not_lt.mpr (Nat.le_of_eq hcounts)), String.append_empty,
      String.append_empty]
  · have hbody : body.isEmpty = false :=
      Bool.eq_false_iff.mpr fun hempty => h hcounts (String.isEmpty_iff.mp hempty)
    rw [hbody, if_neg Bool.false_ne_true, if_neg Bool.false_ne_true, if_neg hcounts,
      if_pos (Nat.pos_of_ne_zero hcounts)]

/-- A report states the counts of what it shows behind its notices and tables, and the summary at its end. -/
theorem render_eq (o : Options) (p : Presentation) (results : List LintResult) :
    render o p results = shownBody (body o p results) ++ tally o.includeTodos (counts o results) ++
      summaryText o := by
  unfold render
  dsimp only
  rw [shownBody_append_tally body_ne_empty]
  rfl

end Console

end LintDebt
