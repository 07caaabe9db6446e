import LintDebt.Proofs.Text.Digits
import LintDebt.Proofs.Text.Lines
import LintDebt.Report.Format
import Mathlib.Algebra.Ring.Nat

/-!
# Reports made of lines

Three of the formats for other programs have a line for each diagnostic.  The texts of a diagnostic are written
out as they are given, so a line feed in one of them ends the line: such a report has one line more for each, and
what stands behind the line feed is free to look like a line of its own.

* `LintDebt.Text.feeds`, `LintDebt.Text.ConsistsOf`: the line feeds of a text, and the lines it is made of.
* `LintDebt.ReportFormat.LineFormat`: the formats with a line for each diagnostic.
* `LintDebt.ReportFormat.LineFormat.render_eq`: a report in such a format, put together from its lines.
* `LintDebt.ReportFormat.LineFormat.lines_render`: when a report has just a line for each diagnostic, and how many
  it has otherwise.
* `LintDebt.ReportFormat.LineFormat.render_forged`: a text that adds a command to a report.
-/

namespace LintDebt

namespace Text

/-! ## Line feeds -/

/-- The number of line feeds in a text. -/
def feeds (s : String) : Nat :=
  s.toList.count '\n'

@[simp] theorem feeds_append (s t : String) : feeds (s ++ t) = feeds s + feeds t := by
  rw [feeds, String.toList_append, List.count_append]
  rfl

/-- A text without line feeds is all on one line. -/
theorem feeds_eq_zero_iff {s : String} : feeds s = 0 ↔ '\n' ∉ s.toList :=
  List.count_eq_zero

/-- A number is written on one line. -/
@[simp] theorem feeds_toString (n : Nat) : feeds (toString n) = 0 := by
  have hdigits : (toString n).toList = decimalDigits n := Nat.toList_repr
  rw [feeds_eq_zero_iff, hdigits]
  exact fun hmem => ne_of_isDigit (isDigit_of_mem_decimalDigits hmem) (by decide) rfl

/-- A text has a piece in front of each separator, and one behind the last. -/
theorem length_split (separator : Char) (s : List Char) : (split separator s).length = s.count separator + 1 := by
  induction s with
  | nil => rfl
  | cons c s ih =>
    by_cases hc : c = separator
    · simp [split, hc, ih]
    · obtain ⟨piece, pieces, hsplit⟩ := List.exists_cons_of_ne_nil (split_ne_nil separator s)
      rw [hsplit] at ih
      simpa [split, hc, hsplit] using ih

/-! ## Lines that are closed -/

/-- A text is made of lines: each is closed by a line feed, and there is no other. -/
def ConsistsOf (s : String) (lines : List String) : Prop :=
  split '\n' s.toList = lines.map String.toList ++ [[]]

end Text

namespace ReportFormat

open LintDebt.Text (feeds ConsistsOf split)

/-- The first of some closed lines, and the others. -/
theorem toList_closeLines_cons (line : String) (lines : List String) :
    (closeLines (line :: lines)).toList = line.toList ++ '\n' :: (closeLines lines).toList := by
  rw [closeLines, List.map_cons, String.join_cons, String.toList_append, String.toList_append, List.append_assoc]
  rfl

/-- Closed lines are split into the pieces of each, and the empty piece behind the last. -/
theorem split_closeLines (lines : List String) :
    split '\n' (closeLines lines).toList = (lines.flatMap fun line => split '\n' line.toList) ++ [[]] := by
  induction lines with
  | nil => rfl
  | cons line lines ih =>
    rw [toList_closeLines_cons, Text.split_append_cons, ih, List.flatMap_cons, List.append_assoc]

/-- Closed lines are what a text is made of exactly when they are lines: when there is no line feed in them. -/
theorem consistsOf_closeLines_iff {lines : List String} :
    ConsistsOf (closeLines lines) lines ↔ ∀ line ∈ lines, feeds line = 0 := by
  unfold ConsistsOf
  constructor
  · intro h line hline
    have hpiece : line.toList ∈ split '\n' (closeLines lines).toList := by
      rw [h]
      exact List.mem_append_left _ (List.mem_map_of_mem hline)
    exact Text.feeds_eq_zero_iff.mpr (Text.not_mem_of_mem_split hpiece)
  · intro h
    have hpieces : ∀ line ∈ lines, split '\n' line.toList = [line.toList] :=
      fun line hline => Text.split_of_not_mem (Text.feeds_eq_zero_iff.mp (h line hline))
    rw [split_closeLines, List.flatMap_def, List.map_congr_left hpieces, ← List.flatMap_def,
      ← List.map_eq_flatMap]

/-- Closed lines are as many lines as they are and have line feeds. -/
theorem length_lines_closeLines (lines : List String) :
    (Text.lines (closeLines lines)).length = lines.length + (lines.map feeds).sum := by
  induction lines with
  | nil => rfl
  | cons line lines ih =>
    rw [Text.lines_of_toList_eq (toList_closeLines_cons line lines), List.length_append, List.length_map,
      Text.length_split, String.ofList_toList, ih, List.map_cons, List.sum_cons, List.length_cons]
    unfold feeds
    omega

/-! ## Formats with a line for each diagnostic -/

/-- A format with a line for each diagnostic. -/
inductive LineFormat where
  | compact
  | unix
  | github
  deriving DecidableEq, Repr

namespace LineFormat

/-- The format among all. -/
def format : LineFormat → ReportFormat
  | .compact => .compact
  | .unix => .unix
  | .github => .github

/-- The line of a diagnostic. -/
def line (cwd : String) : LineFormat → LintResult → Diagnostic → String
  | .compact => compactLine
  | .unix => unixLine
  | .github => githubLine cwd

/-- The texts that the line of a diagnostic takes over as they are. -/
def fields (cwd : String) : LineFormat → LintResult → Diagnostic → List String
  | .compact, r, d | .unix, r, d => [r.sourcePath, d.text]
  | .github, r, d => [Path.relativeTo cwd r.sourcePath, d.text, d.ruleId]

/-- The lines behind those of a number of diagnostics. -/
def closing : LineFormat → Nat → List String
  | .unix, n => if n = 0 then [] else ["", counted n "problem"]
  | .compact, _ | .github, _ => []

/-- The diagnostics of results that are no todos, each with its result. -/
def shown (results : List LintResult) : List (LintResult × Diagnostic) :=
  results.flatMap fun r => (r.warnings.filter fun d => d.severity != .todo).map fun d => (r, d)

/-- The lines of the diagnostics of some results. -/
def linesOf (cwd : String) (f : LineFormat) (results : List LintResult) : List String :=
  (shown results).map fun x => f.line cwd x.1 x.2

/-- Without its todos a result has the lines of its other diagnostics. -/
theorem lines_withoutTodos (cwd : String) (f : LineFormat) (results : List LintResult) :
    lines (f.line cwd) (results.map withoutTodos) = f.linesOf cwd results := by
  have hline : ∀ r, f.line cwd (withoutTodos r) = f.line cwd r := by
    intro r
    cases f <;> rfl
  unfold lines linesOf shown
  rw [List.flatMap_map, List.map_flatMap]
  simp only [hline, List.map_map]
  rfl

/-- Closed lines stand behind one another. -/
theorem closeLines_append (lines others : List String) :
    closeLines (lines ++ others) = closeLines lines ++ closeLines others := by
  rw [closeLines, List.map_append, String.join_append]
  rfl

/-- What stands behind the lines of diagnostics is closed lines. -/
theorem total_eq (n : Nat) : total n = closeLines (closing .unix n) := by
  by_cases hn : n = 0
  · subst hn
    rfl
  · rw [total, closing, if_neg hn, if_neg hn, closeLines, List.map_cons, List.map_cons, List.map_nil,
      String.join_cons, String.join_cons, String.join_nil, String.append_empty, String.empty_append,
      ← String.append_assoc]

/-- A report is made of the lines of the diagnostics and what stands behind them. -/
theorem render_eq (cwd : String) (f : LineFormat) (results : List LintResult) :
    f.format.render cwd results = closeLines (f.linesOf cwd results ++ f.closing (shown results).length) := by
  have hlines := lines_withoutTodos cwd f results
  cases f with
  | compact => exact congrArg closeLines (hlines.trans (List.append_nil _).symm)
  | github => exact congrArg closeLines (hlines.trans (List.append_nil _).symm)
  | unix =>
    have hcount : (linesOf cwd .unix results).length = (shown results).length := List.length_map _
    show closeLines (lines (line cwd .unix) (results.map withoutTodos)) ++
      total (lines (line cwd .unix) (results.map withoutTodos)).length = _
    rw [hlines, hcount, total_eq, closeLines_append]

/-- A property of an annotation is on one line. -/
theorem feeds_property {name : String} (hname : feeds name = 0) (value : Option UInt32) :
    feeds (property name value) = 0 := by
  cases value with
  | none => rfl
  | some n =>
    have hmarks : feeds "," = 0 ∧ feeds "=" = 0 := by decide
    simp only [property, Text.feeds_append, Text.feeds_toString, hname, hmarks]

/-- The line of a diagnostic has the line feeds of the texts that it takes over. -/
theorem feeds_line (cwd : String) (f : LineFormat) (r : LintResult) (d : Diagnostic) :
    feeds (f.line cwd r d) = ((f.fields cwd r d).map feeds).sum := by
  have hseverity : feeds d.severity.name = 0 ∧ feeds ( annotation d.severity) = 0 := by
    cases d.severity <;> decide
  have hend : feeds (property "endLine" d.endLine) = 0 ∧ feeds (property "endColumn" d.endColumn) = 0 :=
    ⟨feeds_property (by decide) _, feeds_property (by decide) _⟩
  have hmarks : ∀ mark ∈ [": line ", ", col ", ", ", " - ", ":", ": ", " [", "]", "::", " file=", ",line=", ",col=",
      ",title=Stylelint problem::"], feeds mark = 0 := by decide
  simp only [List.forall_mem_cons] at hmarks
  cases f with
  | compact =>
    simp only [line, compactLine, fields, Text.feeds_append, Text.feeds_toString, hseverity, hmarks, List.map_cons,
      List.map_nil, List.sum_cons, List.sum_nil, Nat.add_zero]
  | unix =>
    simp only [line, unixLine, fields, Text.feeds_append, Text.feeds_toString, hseverity, hmarks, List.map_cons,
      List.map_nil, List.sum_cons, List.sum_nil, Nat.add_zero]
  | github =>
    simp only [fields, List.map_cons, List.map_nil, List.sum_cons, List.sum_nil]
    unfold line githubLine
    -- what the line writes itself is put in one kind at a time: all at once the annotation's texts are unfolded
    simp only [Text.feeds_append]
    simp only [Text.feeds_toString]
    simp only [hseverity, hend]
    simp only [hmarks, Nat.add_zero, Nat.zero_add, Nat.add_assoc]

/-- The count of some things is on one line. -/
theorem feeds_counted (n : Nat) {noun : String} (hnoun : feeds noun = 0) : feeds (counted n noun) = 0 := by
  have hmarks : feeds " " = 0 ∧ feeds "s" = 0 := by decide
  unfold counted pluralize
  split <;> simp only [Text.feeds_append, Text.feeds_toString, hnoun, hmarks]

/-- What stands behind the lines of diagnostics has no line feeds of its own. -/
theorem feeds_of_mem_closing {f : LineFormat} {n : Nat} {l : String} (h : l ∈ f.closing n) : feeds l = 0 := by
  unfold closing at h
  split at h
  · split at h
    · cases h
    · rcases List.mem_cons.mp h with rfl | h
      · rfl
      · rw [List.mem_singleton.mp h]
        exact feeds_counted n (by decide)
  · cases h
  · cases h

/-- In a format with a line for each diagnostic a report has just these lines, in their order and for all
diagnostics but the todos, and behind them those that count them, exactly when there is no line feed in the texts
that the lines take over: the path, the message and, in annotations, the rule.  Each line feed in one of these
adds a line. -/
theorem lines_render (cwd : String) (f : LineFormat) (results : List LintResult) :
    (ConsistsOf (f.format.render cwd results) (f.linesOf cwd results ++ f.closing (shown results).length) ↔
        ∀ x ∈ shown results, ∀ field ∈ f.fields cwd x.1 x.2, '\n' ∉ field.toList) ∧
      (Text.lines (f.format.render cwd results)).length =
        (shown results).length + (f.closing (shown results).length).length +
          ((shown results).map fun x => ((f.fields cwd x.1 x.2).map feeds).sum).sum := by
  have hclosing : ∀ l ∈ f.closing (shown results).length, feeds l = 0 := fun _ => feeds_of_mem_closing
  rw [render_eq]
  constructor
  · rw [consistsOf_closeLines_iff, List.forall_mem_append, and_iff_left hclosing, linesOf, List.forall_mem_map]
    simp only [feeds_line, List.sum_eq_zero_iff_forall_eq_nat, List.forall_mem_map, Text.feeds_eq_zero_iff]
  · have hnone : ((f.closing (shown results).length).map feeds).sum = 0 := by
      rw [List.sum_eq_zero_iff_forall_eq_nat, List.forall_mem_map]
      exact hclosing
    rw [length_lines_closeLines, List.map_append, List.sum_append, hnone, List.length_append, linesOf,
      List.length_map, List.map_map, Nat.add_zero]
    simp only [Function.comp_def, feeds_line]

/-- A result with a message that goes on behind a line feed, as a command would. -/
def exampleForged : LintResult where
  source := some "/repo/a.css"
  warnings := [{ line := 1, column := 1, rule := some "color", severity := .error,
                 text := "no\n::error file=b.css::yes" }]

theorem render_forged :
    (shown [exampleForged]).length = 1 ∧
      Text.lines (LineFormat.github.format.render "/repo" [exampleForged]) =
        ["::error file=a.css,line=1,col=1,title=Stylelint problem::no", "::error file=b.css::yes [color]"] := by
  decide +kernel

end LineFormat

end ReportFormat

end LintDebt
