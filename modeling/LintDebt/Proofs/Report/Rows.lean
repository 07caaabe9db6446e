import Mathlib.Data.List.Perm.Basic
import Mathlib.Data.Prod.Lex
import LintDebt.Proofs.Text.Trim

/-!
# The rows of a report

Each diagnostic that a report shows has one row, in the table of its own result, and the report counts its
rows.

* `LintDebt.IsStableSort`, `LintDebt.isStableSort_mergeSort`: sorting by a key that leaves the order of
  elements with the same key.
* `LintDebt.Diagnostic.place`: by what a table is sorted.
* `LintDebt.Table.layOut`, `LintDebt.Table.render_eq`: a table is laid out from its rows alone.
* `LintDebt.Console.render_rows`: the tables of a report, their rows, and the line that counts them.
-/

namespace LintDebt

/-! ## Sorting -/

/-- A list holds the elements of another in the order of their keys, those of one key as they were. -/
structure IsStableSort {α κ : Type} [LinearOrder κ] (key : α → κ) (given sorted : List α) : Prop where
  perm : sorted.Perm given
  pairwise : sorted.Pairwise fun a b => key a ≤ key b
  stable : ∀ k, sorted.filter (fun a => key a = k) = given.filter (fun a => key a = k)

/-- Merging sorts by a key what is compared by it. -/
theorem isStableSort_mergeSort {α κ : Type} [LinearOrder κ] {key : α → κ} {le : α → α → Bool}
    (hle : ∀ a b, le a b = true ↔ key a ≤ key b) (given : List α) :
    IsStableSort key given (given.mergeSort le) := by
  have htrans : ∀ a b c, le a b = true → le b c = true → le a c = true := by
    intro a b c hab hbc
    exact (hle a c).mpr (le_trans ((hle a b).mp hab) ((hle b c).mp hbc))
  have htotal : ∀ a b, (le a b || le b a) = true := by
    intro a b
    rw [Bool.or_eq_true, hle, hle]
    exact le_total (key a) (key b)
  refine ⟨List.mergeSort_perm given le, ?_, fun k => ?_⟩
  · exact (List.pairwise_mergeSort htrans htotal given).imp fun {a b} => (hle a b).mp
  · -- the elements of one key are in order as they are, so they stay so
    have hordered : (given.filter fun a => key a = k).Pairwise fun a b => le a b = true := by
      rw [List.pairwise_filter]
      refine List.pairwise_of_forall fun a b ha hb => (hle a b).mpr ?_
      rw [of_decide_eq_true ha, of_decide_eq_true hb]
    have hsublist : (given.filter fun a => key a = k).Sublist
        ((given.mergeSort le).filter fun a => key a = k) := by
      have h := (List.sublist_mergeSort htrans htotal hordered List.filter_sublist).filter
        fun a => decide (key a = k)
      rwa [List.filter_filter, funext fun a => Bool.and_self _] at h
    have hlength := ((List.mergeSort_perm given le).filter fun a => decide (key a = k)).length_eq
    exact (hsublist.eq_of_length hlength.symm).symm

/-! ## The order of a table -/

/-- Where a diagnostic stands in a table: first those without a position, then by line, then by column. -/
def Diagnostic.place (d : Diagnostic) : Bool ×ₗ Nat ×ₗ Nat :=
  toLex (decide (0 < d.line), toLex (d.line.toNat, d.column.toNat))

namespace Table

/-- What is compared in a table is the place: a diagnostic without a position has line zero. -/
theorem mayPrecede_iff (a b : Diagnostic) : mayPrecede a b = true ↔ a.place ≤ b.place := by
  unfold mayPrecede Diagnostic.place
  simp only [Prod.Lex.toLex_le_toLex, Bool.or_eq_true, Bool.and_eq_true, decide_eq_true_eq,
    beq_iff_eq, UInt32.lt_iff_toNat_lt, UInt32.le_iff_toNat_le, ← UInt32.toNat_inj, UInt32.toNat_zero]
  rcases Nat.eq_zero_or_pos a.line.toNat with ha | ha <;>
    rcases Nat.eq_zero_or_pos b.line.toNat with hb | hb <;>
    simp [ha, hb, Bool.lt_iff]
  omega

/-- The rows of a table are those of its diagnostics in a stable order. -/
theorem isStableSort_place (diagnostics : List Diagnostic) :
    IsStableSort Diagnostic.place diagnostics (diagnostics.mergeSort mayPrecede) :=
  isStableSort_mergeSort mayPrecede_iff diagnostics

/-! ## Tables and their rows -/

/-- The text of a row. -/
def rowText (color : Bool) (w : Widths) (room : Nat) (row : Row) : String :=
  String.join ((rowLines color w room row).map (· ++ "\n"))

/-- What stands above the rows of a table. -/
def heading (p : Presentation) (source : String) : String :=
  "\n" ++ if source.isEmpty then "" else sourceLine p source ++ "\n"

/-- The text of a row in a table of rows. -/
def rowTextAmong (p : Presentation) (rows : List Row) : Row → String :=
  let w := Widths.ofRows rows
  rowText p.color w (w.messageRoom p.columns)

/-- A table with some rows, one after the other; nothing when there are none. -/
def layOut (p : Presentation) (source : String) (rows : List Row) : String :=
  if rows.isEmpty then "" else heading p source ++ String.join (rows.map (rowTextAmong p rows))

/-- The text of the lines of rows is put together from the texts of the rows. -/
theorem join_flatMap_rowLines (color : Bool) (w : Widths) (room : Nat) (rows : List Row) :
    String.join ((rows.flatMap (rowLines color w room)).map (· ++ "\n")) =
      String.join (rows.map (rowText color w room)) := by
  induction rows with
  | nil => rfl
  | cons row rows ih =>
    rw [List.flatMap_cons, List.map_append, String.join_append, ih, List.map_cons, String.join_cons, rowText]

/-- Diagnostics have as many rows as they are. -/
theorem length_rows (diagnostics : List Diagnostic) : (rows diagnostics).length = diagnostics.length := by
  rw [rows, List.length_map, List.length_mergeSort]

/-- The table of diagnostics is laid out from their rows. -/
theorem render_eq (p : Presentation) (source : String) (diagnostics : List Diagnostic) :
    render p source diagnostics = layOut p source (rows diagnostics) := by
  have hempty : (rows diagnostics).isEmpty = diagnostics.isEmpty := by
    rw [Bool.eq_iff_iff, List.isEmpty_iff_length_eq_zero, List.isEmpty_iff_length_eq_zero, length_rows]
  unfold render layOut
  rw [hempty]
  split
  · rfl
  · unfold tableLines heading rowTextAmong
    dsimp only
    rw [List.map_cons, List.map_append, String.join_cons, String.join_append, join_flatMap_rowLines,
      ← String.append_assoc]
    split <;> rfl

end Table

namespace Console

open LintDebt.Table (Row)
open LintDebt.Text (trim IsPartOf isPartOf_append_left isPartOf_append_right isPartOf_join)

/-! ## What a report counts -/

/-- A number, with a noun that is in the singular exactly for one. -/
def numbered (n : Nat) (noun : String) : String :=
  if n = 1 then "1 " ++ noun else toString n ++ " " ++ noun ++ "s"

/-- Things are counted by a number with their noun. -/
theorem counted_eq (n : Nat) (noun : String) : counted n noun = numbered n noun := by
  unfold counted pluralize numbered
  split
  · next hone =>
    subst hone
    rfl
  · exact String.append_assoc.symm

/-- The line that counts rows; there is none when there are no rows. -/
def rowTally (includeTodos : Bool) (rows : List Row) : String :=
  let number (s : Severity) := rows.countP fun row => row.severity == s
  if rows.isEmpty then ""
  else
    numbered (number .error + number .warning) "problem" ++ " (" ++
      numbered (number .error) "error" ++ ", " ++ numbered (number .warning) "warning" ++
      (if includeTodos then ", " ++ numbered (number .todo) "todo" else "") ++ ")" ++ "\n\n"

/-- Diagnostics that are not off are counted once each. -/
theorem problems_add_todos {diagnostics : List Diagnostic} (h : ∀ d ∈ diagnostics, d.severity ≠ .off) :
    (Counts.of diagnostics).problems + (Counts.of diagnostics).todos = diagnostics.length := by
  induction diagnostics with
  | nil => rfl
  | cons d rest ih =>
    have hrest := ih fun x hx => h x (List.mem_cons_of_mem d hx)
    have hd := h d List.mem_cons_self
    simp only [Counts.of, Counts.problems, List.countP_cons, List.length_cons] at hrest ⊢
    cases hseverity : d.severity with
    | off => exact absurd hseverity hd
    | todo | warning | error =>
      simp
      omega

/-- A report counts what it shows, each diagnostic once. -/
theorem problems_add_todos_counts (o : Options) (results : List LintResult) :
    (counts o results).problems + (counts o results).todos =
      ((results.filter fun r => !r.ignored).flatMap (visible o.includeTodos)).length := by
  rw [counts_eq_of_visible]
  refine problems_add_todos fun d hd hoff => ?_
  obtain ⟨r, -, hvisible⟩ := List.mem_flatMap.mp hd
  have hshown := (List.mem_filter.mp hvisible).2
  rw [hoff] at hshown
  cases hshown

/-- The counts of a report are those of its rows. -/
theorem tally_counts (o : Options) (results : List LintResult) {sorted : LintResult → List Diagnostic}
    (hsorted : ∀ r, (sorted r).Perm (visible o.includeTodos r)) :
    tally o.includeTodos (counts o results) = rowTally o.includeTodos
      ((results.filter fun r => !r.ignored).flatMap fun r => (sorted r).map Row.of) := by
  have hrows : ((results.filter fun r => !r.ignored).flatMap fun r => (sorted r).map Row.of).Perm
      (((results.filter fun r => !r.ignored).flatMap (visible o.includeTodos)).map Row.of) := by
    rw [List.map_flatMap]
    exact List.Perm.flatMap_left _ fun r _ => (hsorted r).map Row.of
  generalize ((results.filter fun r => !r.ignored).flatMap fun r => (sorted r).map Row.of) = rows at hrows ⊢
  have hnumber : ∀ s, (rows.countP fun row => row.severity == s) =
      ((results.filter fun r => !r.ignored).flatMap (visible o.includeTodos)).countP (·.severity == s) := by
    intro s
    rw [hrows.countP_eq, List.countP_map]
    rfl
  have hnone : (counts o results).problems + (counts o results).todos = 0 ↔ rows.isEmpty = true := by
    rw [problems_add_todos_counts, List.isEmpty_iff_length_eq_zero, hrows.length_eq, List.length_map]
  unfold tally rowTally
  simp only [hnumber, hnone]
  split
  · rfl
  · simp only [counts_eq_of_visible, Counts.text, counted_eq]
    rfl

/-! ## The tables of a report -/

/-- A report shows the errors, the warnings and, when it is to, the todos. -/
theorem visible_eq (includeTodos : Bool) (r : LintResult) :
    visible includeTodos r = (r.warnings ++ r.parseErrors.map ParseError.toDiagnostic).filter fun d =>
      d.severity == .error || d.severity == .warning || (d.severity == .todo && includeTodos) := by
  unfold visible allDiagnostics
  congr 1
  funext d
  cases d.severity <;> simp [shows]

/-- A report is made of the tables of its results and of what it says apart from them. -/
theorem render_tables (o : Options) (p : Presentation) (results : List LintResult) :
    render o p results =
      shownBody (trim (invalidOptions p.color results ++ deprecations p.color results ++
        String.join ((results.filter fun r => !r.ignored).map fun r =>
          Table.layOut p r.sourcePath (Table.rows (visible o.includeTodos r))))) ++
      tally o.includeTodos (counts o results) ++ summaryText o := by
  rw [render_eq, body]
  simp only [Table.render_eq]

/-- A row is a part of its table. -/
theorem isPartOf_layOut (p : Presentation) (source : String) {row : Row} {rows : List Row} (h : row ∈ rows) :
    IsPartOf (Table.rowTextAmong p rows row) (Table.layOut p source rows) := by
  have hne : ¬ rows.isEmpty = true := fun hempty => by
    rw [List.isEmpty_iff.mp hempty] at h
    cases h
  rw [Table.layOut, if_neg hne]
  exact (isPartOf_join (List.mem_map_of_mem h)).trans (isPartOf_append_right _ _)

/-- What is shown above the counts is a part of the report. -/
theorem isPartOf_shownBody (body : String) : IsPartOf body (shownBody body) := by
  unfold shownBody
  split
  · next hempty =>
    rw [String.isEmpty_iff.mp hempty]
    exact IsPartOf.refl ""
  · exact ⟨"\n", "\n\n", rfl⟩

/-- What stands in a row of a table is in the report, whatever is trimmed from the ends. -/
theorem isPartOf_report {results : List LintResult} {r : LintResult} (rows : LintResult → List Row) {row : Row}
    (p : Presentation) (hr : r ∈ results) (hshown : r.ignored = false) (hrow : row ∈ rows r)
    (notices ending : String) :
    IsPartOf (trim (Table.rowTextAmong p (rows r) row)) (shownBody (trim (notices ++
      String.join ((results.filter fun r => !r.ignored).map fun r =>
        Table.layOut p r.sourcePath (rows r)))) ++ ending) := by
  have hmem : r ∈ results.filter fun r => !r.ignored :=
    List.mem_filter.mpr ⟨hr, by rw [hshown, Bool.not_false]⟩
  have htables : IsPartOf (Table.rowTextAmong p (rows r) row) (notices ++
      String.join ((results.filter fun r => !r.ignored).map fun r =>
        Table.layOut p r.sourcePath (rows r))) :=
    ((isPartOf_layOut p r.sourcePath hrow).trans (isPartOf_join (List.mem_map.mpr ⟨r, hmem, rfl⟩))).trans
      (isPartOf_append_right _ _)
  exact (htables.trim.trans (isPartOf_shownBody _)).trans (isPartOf_append_left _ _)

/-- A report has a table for each result that is not ignored.  Its rows are those of the errors, the
warnings and, if todos are included, the todos among the diagnostics and parse errors of the result, one for
each, in a stable order: first those without a position, then by line, then by column.  The report is made
of its notices, these tables, the line that counts their rows, which is missing exactly when there are none,
and the summary; and trimming it leaves what stands in each row. -/
theorem render_rows (o : Options) (p : Presentation) (results : List LintResult) :
    ∃ table : LintResult → List Diagnostic,
      (∀ r, IsStableSort Diagnostic.place
        ((r.warnings ++ r.parseErrors.map ParseError.toDiagnostic).filter fun d =>
          d.severity == .error || d.severity == .warning || (d.severity == .todo && o.includeTodos))
        (table r)) ∧
      render o p results =
        shownBody (trim (invalidOptions p.color results ++ deprecations p.color results ++
          String.join ((results.filter fun r => !r.ignored).map fun r =>
            Table.layOut p r.sourcePath ((table r).map Row.of)))) ++
        rowTally o.includeTodos
          ((results.filter fun r => !r.ignored).flatMap fun r => (table r).map Row.of) ++
        summaryText o ∧
      ∀ r ∈ results, r.ignored = false → ∀ d ∈ table r,
        IsPartOf (trim (Table.rowTextAmong p ((table r).map Row.of) (Row.of d))) (render o p results) := by
  have hreport : render o p results =
      shownBody (trim (invalidOptions p.color results ++ deprecations p.color results ++
        String.join ((results.filter fun r => !r.ignored).map fun r =>
          Table.layOut p r.sourcePath (Table.rows (visible o.includeTodos r))))) ++
      rowTally o.includeTodos ((results.filter fun r => !r.ignored).flatMap fun r =>
        Table.rows (visible o.includeTodos r)) ++ summaryText o := by
    rw [render_tables, tally_counts o results fun r => (Table.isStableSort_place (visible o.includeTodos r)).perm]
    rfl
  refine ⟨fun r => (visible o.includeTodos r).mergeSort Table.mayPrecede, fun r => ?_, hreport, ?_⟩
  · rw [← visible_eq]
    exact Table.isStableSort_place _
  · intro r hr hshown d hd
    rw [hreport, String.append_assoc]
    exact isPartOf_report (fun r => Table.rows (visible o.includeTodos r)) p hr hshown (List.mem_map_of_mem hd) _ _

/-- A result with an error that has a position, one that has none, and a todo. -/
def exampleMixed : LintResult where
  source := some "/repo/a.css"
  warnings := [{ line := 3, column := 1, rule := some "color", severity := .error, text := "Later" },
    { severity := .error, text := "Violation" },
    { line := 1, column := 1, severity := .todo, text := "Deferred" }]

/-- The rows of a report are there for the error without a position, too. -/
theorem render_rows_of_example :
    exampleMixed ∈ [exampleMixed] ∧ exampleMixed.ignored = false ∧
      ∃ table : LintResult → List Diagnostic,
        ({ severity := .error, text := "Violation" } : Diagnostic) ∈ table exampleMixed ∧
        IsPartOf (trim (Table.rowTextAmong { cwd := "/repo" } ((table exampleMixed).map Row.of)
            (Row.of { severity := .error, text := "Violation" })))
          (render {} { cwd := "/repo" } [exampleMixed]) := by
  obtain ⟨table, hsorted, -, hpart⟩ := render_rows {} { cwd := "/repo" } [exampleMixed]
  have hmem : ({ severity := .error, text := "Violation" } : Diagnostic) ∈ table exampleMixed :=
    (hsorted exampleMixed).perm.mem_iff.mpr (by decide)
  exact ⟨List.mem_cons_self, rfl, table, hmem, hpart exampleMixed List.mem_cons_self rfl _ hmem⟩

end Console

end LintDebt
