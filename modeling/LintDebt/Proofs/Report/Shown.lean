import LintDebt.Proofs.Text.Trim

/-!
# What a report depends on

A report says each notice once, shows a table for each result that has something to show and is not ignored,
and counts what the tables show.  Nothing else in the results makes a difference to it.

* `LintDebt.Console.View`, `LintDebt.Console.render_congr`: reports on results that look the same are the
  same.
* `LintDebt.LintResult.withoutHidden`, `LintDebt.Console.render_withoutHidden`: diagnostics that are not shown
  leave no trace.
* `LintDebt.LintResult.noticesOnly`, `LintDebt.Console.render_ignored`: of an ignored result a report gives the
  notices, and nothing else.
* `LintDebt.Console.render_ignored_notice`: an ignored result that is not passed over.
-/

namespace LintDebt

/-- A result without the diagnostics that are off, and without todos unless they are included. -/
def LintResult.withoutHidden (includeTodos : Bool) (r : LintResult) : LintResult :=
  { r with warnings := r.warnings.filter fun d =>
      !(d.severity == .off || (d.severity == .todo && !includeTodos)) }

/-- The notices of a result, without its source, its diagnostics and its parse errors. -/
def LintResult.noticesOnly (r : LintResult) : LintResult where
  deprecations := r.deprecations
  invalidOptions := r.invalidOptions

namespace Console

variable {o : Options} {p : Presentation} {results results' : List LintResult}

/-! ## What is looked at -/

/-- The texts of the invalid options in results, each once. -/
def invalidTexts (results : List LintResult) : List String :=
  (results.flatMap fun r => r.invalidOptions.map (·.text)).eraseDups

/-- The deprecations in results, each text once. -/
def deprecated (results : List LintResult) : List Deprecation :=
  (results.flatMap (·.deprecations)).eraseDupsBy fun a b => a.text == b.text

/-- What a report looks at in results. -/
structure View where
  options : List String
  deprecations : List Deprecation
  /-- The sources of the tables, each with the diagnostics that are shown, of which there are some. -/
  tables : List (String × List Diagnostic)

/-- The tables of results, without those that show nothing. -/
def tablesOf (includeTodos : Bool) (results : List LintResult) : List (String × List Diagnostic) :=
  ((results.filter fun r => !r.ignored).map fun r => (r.sourcePath, visible includeTodos r)).filter
    fun table => !table.2.isEmpty

/-- What a report looks at in results. -/
def View.of (includeTodos : Bool) (results : List LintResult) : View where
  options := invalidTexts results
  deprecations := deprecated results
  tables := tablesOf includeTodos results

/-- Tables that show nothing add nothing to a report. -/
theorem join_tablesOf (includeTodos : Bool) (p : Presentation) (results : List LintResult) :
    String.join ((tablesOf includeTodos results).map fun table => Table.render p table.1 table.2) =
      String.join ((results.filter fun r => !r.ignored).map fun r =>
        Table.render p r.sourcePath (visible includeTodos r)) := by
  unfold tablesOf
  induction results.filter fun r => !r.ignored with
  | nil => rfl
  | cons r rest ih =>
    cases hvisible : visible includeTodos r with
    | nil =>
      have hnothing : Table.render p r.sourcePath [] = "" := rfl
      simp [hvisible, hnothing, ih]
    | cons d others => simp [hvisible, ih]

/-- Tables that show nothing add nothing to the counts. -/
theorem flatMap_tablesOf (includeTodos : Bool) (results : List LintResult) :
    (tablesOf includeTodos results).flatMap (·.2) =
      (results.filter fun r => !r.ignored).flatMap (visible includeTodos) := by
  unfold tablesOf
  induction results.filter fun r => !r.ignored with
  | nil => rfl
  | cons r rest ih =>
    cases hvisible : visible includeTodos r with
    | nil => simp [hvisible, ih]
    | cons d others => simp [hvisible, ih]

/-- Reports on results that look the same are the same. -/
theorem render_congr (h : View.of o.includeTodos results = View.of o.includeTodos results') :
    render o p results = render o p results' := by
  obtain ⟨hinvalid, hdeprecated, htables⟩ := View.mk.inj h
  have hbody : body o p results = body o p results' := by
    unfold body
    dsimp only
    rw [← join_tablesOf, ← join_tablesOf, htables]
    unfold invalidOptions Console.deprecations
    dsimp only
    rw [← invalidTexts, ← invalidTexts, ← deprecated, ← deprecated, hinvalid, hdeprecated]
  have hcounts : counts o results = counts o results' := by
    rw [counts_eq_of_visible, counts_eq_of_visible, ← flatMap_tablesOf, ← flatMap_tablesOf, htables]
  rw [render_eq, render_eq, hbody, hcounts]

/-- Results look the same after a change to each that changes neither its notices nor what is shown of it. -/
theorem View.of_map {f : LintResult → LintResult} (includeTodos : Bool)
    (hinvalid : ∀ r, (f r).invalidOptions = r.invalidOptions)
    (hdeprecations : ∀ r, (f r).deprecations = r.deprecations)
    (htables : ∀ r, tablesOf includeTodos [f r] = tablesOf includeTodos [r]) (results : List LintResult) :
    View.of includeTodos (results.map f) = View.of includeTodos results := by
  have hsplit : ∀ r rest, tablesOf includeTodos (r :: rest) =
      tablesOf includeTodos [r] ++ tablesOf includeTodos rest := by
    intro r rest
    rw [tablesOf, tablesOf, tablesOf, ← List.filter_append, ← List.map_append, ← List.filter_append]
    rfl
  have hall : tablesOf includeTodos (results.map f) = tablesOf includeTodos results := by
    induction results with
    | nil => rfl
    | cons r rest ih => rw [List.map_cons, hsplit, htables, ih, ← hsplit]
  unfold View.of invalidTexts deprecated
  rw [List.flatMap_map, List.flatMap_map, hall]
  simp only [hinvalid, hdeprecations]

/-! ## Diagnostics that are not shown -/

/-- What is shown of a result is shown of it without what is hidden. -/
theorem visible_withoutHidden (includeTodos : Bool) (r : LintResult) :
    visible includeTodos (r.withoutHidden includeTodos) = visible includeTodos r := by
  unfold visible allDiagnostics LintResult.withoutHidden
  rw [List.filter_append, List.filter_append, List.filter_filter]
  congr 1
  apply List.filter_congr
  intro d _
  cases d.severity <;> cases includeTodos <;> rfl

/-- A report is the same when all diagnostics that are off are deleted, and all todos unless they are to be
shown: they leave no trace in its tables, nor in the counts. -/
theorem render_withoutHidden (o : Options) (p : Presentation) (results : List LintResult) :
    render o p (results.map (LintResult.withoutHidden o.includeTodos)) = render o p results := by
  apply render_congr
  refine View.of_map (f := LintResult.withoutHidden o.includeTodos) o.includeTodos (fun _ => rfl)
    (fun _ => rfl) (fun r => ?_) results
  have hsource : (r.withoutHidden o.includeTodos).sourcePath = r.sourcePath := rfl
  have hignored : (r.withoutHidden o.includeTodos).ignored = r.ignored := rfl
  cases h : r.ignored <;> simp [tablesOf, h, hsource, hignored, visible_withoutHidden]

/-! ## Ignored results -/

/-- Nothing is shown of notices alone. -/
theorem tablesOf_noticesOnly (includeTodos : Bool) (r : LintResult) :
    tablesOf includeTodos [r.noticesOnly] = [] := rfl

/-- No table is shown of an ignored result. -/
theorem tablesOf_ignored (includeTodos : Bool) {r : LintResult} (h : r.ignored = true) :
    tablesOf includeTodos [r] = [] := by
  simp [tablesOf, h]

/-- The tables of results are those of the ones that are not ignored. -/
theorem tablesOf_filter (includeTodos : Bool) (results : List LintResult) :
    tablesOf includeTodos (results.filter fun r => !r.ignored) = tablesOf includeTodos results := by
  rw [tablesOf, tablesOf, List.filter_filter, funext fun r : LintResult => Bool.and_self (!r.ignored)]

/-- Lines put together show something when there are some, if each of them does. -/
theorem allBlank_join_map {α : Type} {f : α → String} (h : ∀ x, Text.allBlank (f x) = false) (xs : List α) :
    Text.allBlank (String.join (xs.map f)) = xs.isEmpty := by
  cases xs with
  | nil => rfl
  | cons x rest => rw [List.map_cons, String.join_cons, Text.allBlank_append, h, Bool.false_and, List.isEmpty_cons]

/-- A list without repetitions is empty when the list is. -/
theorem isEmpty_eraseDupsBy {α : Type} (same : α → α → Bool) (xs : List α) :
    (xs.eraseDupsBy same).isEmpty = xs.isEmpty := by
  cases xs with
  | nil => rfl
  | cons x rest => rw [List.eraseDupsBy_cons, List.isEmpty_cons, List.isEmpty_cons]

/-- The notices of invalid options show when there are some. -/
theorem allBlank_invalidOptions (color : Bool) (results : List LintResult) :
    Text.allBlank (invalidOptions color results) =
      (results.flatMap fun r => r.invalidOptions.map (·.text)).isEmpty := by
  have hmark : Text.allBlank "Invalid Option: " = false := by decide +kernel
  have hline : ∀ text, Text.allBlank (Style.red.paint color "Invalid Option: " ++ text ++ "\n") = false := by
    intro text
    simp only [Text.allBlank_append, Style.allBlank_paint_eq_false hmark, Bool.false_and]
  have hfeed : Text.allBlank "\n" = true := by decide +kernel
  unfold invalidOptions List.eraseDups
  dsimp only
  rw [Text.allBlank_append, hfeed, Bool.true_and, allBlank_join_map hline, isEmpty_eraseDupsBy]

/-- The notices of deprecations show when there are some. -/
theorem allBlank_deprecations (color : Bool) (results : List LintResult) :
    Text.allBlank (deprecations color results) = (results.flatMap (·.deprecations)).isEmpty := by
  have hmark : Text.allBlank "Deprecation Warning: " = false := by decide +kernel
  have hline : ∀ d : Deprecation, Text.allBlank (Style.yellow.paint color "Deprecation Warning: " ++ d.text ++
      reference color d ++ "\n") = false := by
    intro d
    simp only [Text.allBlank_append, Style.allBlank_paint_eq_false hmark, Bool.false_and]
  have hfeed : Text.allBlank "\n" = true := by decide +kernel
  unfold deprecations
  dsimp only
  rw [isEmpty_eraseDupsBy]
  split
  · next hnone =>
    rw [hnone]
    exact Text.allBlank_empty
  · rw [Text.allBlank_append, hfeed, Bool.true_and, allBlank_join_map hline, isEmpty_eraseDupsBy]

/-- A report on ignored results alone is empty, up to the summary, exactly when they have no notices. -/
theorem render_eq_summaryText_iff (o : Options) (p : Presentation) (h : ∀ r ∈ results, r.ignored = true) :
    render o p results = summaryText o ↔ ∀ r ∈ results, r.invalidOptions = [] ∧ r.deprecations = [] := by
  have hnone : (results.filter fun r => !r.ignored) = [] :=
    List.filter_eq_nil_iff.mpr fun r hr => by rw [h r hr]; decide
  have hcounts : counts o results = ⟨0, 0, 0⟩ := by
    rw [counts, hnone]
    rfl
  have hblank : body o p results = "" ↔ ∀ r ∈ results, r.invalidOptions = [] ∧ r.deprecations = [] := by
    rw [body, hnone, Text.trim_eq_empty_iff, Text.allBlank_append, Text.allBlank_append, allBlank_invalidOptions,
      allBlank_deprecations]
    simp [forall_and]
  have hreport : render o p results = shownBody (body o p results) ++ summaryText o := by
    rw [render_eq, hcounts]
    exact congrArg (· ++ summaryText o) String.append_empty
  rw [hreport, ← hblank, String.append_eq_right_iff, shownBody]
  simp

/-- Of an ignored result a report gives the notices, and nothing else.  So the report is the same without
the ignored results if they have no notices apart from the others; and a report on ignored results alone is
empty, up to the summary, exactly when they have no notices at all. -/
theorem render_ignored (o : Options) (p : Presentation) (results : List LintResult) :
    render o p (results.map fun r => if r.ignored then r.noticesOnly else r) = render o p results ∧
      (invalidTexts (results.filter fun r => !r.ignored) = invalidTexts results →
        deprecated (results.filter fun r => !r.ignored) = deprecated results →
        render o p (results.filter fun r => !r.ignored) = render o p results) ∧
      ((∀ r ∈ results, r.ignored = true) → (render o p results = summaryText o ↔
        ∀ r ∈ results, r.invalidOptions = [] ∧ r.deprecations = [])) := by
  refine ⟨?_, ?_, render_eq_summaryText_iff o p⟩
  · apply render_congr
    refine View.of_map (f := fun r => if r.ignored then r.noticesOnly else r) o.includeTodos ?_ ?_ ?_ results
    · intro r
      split <;> rfl
    · intro r
      split <;> rfl
    · intro r
      split
      · next hignored => rw [tablesOf_noticesOnly, tablesOf_ignored o.includeTodos hignored]
      · rfl
  · intro hinvalid hdeprecated
    apply render_congr
    unfold View.of
    rw [hinvalid, hdeprecated, tablesOf_filter]

/-- An ignored result with an error, and with a notice of an invalid option. -/
def exampleIgnored : LintResult where
  source := some "/repo/a.css"
  warnings := [{ line := 1, column := 1, rule := some "color", severity := .error, text := "no" }]
  invalidOptions := [⟨"x"⟩]
  ignored := true

/-- A result with the same notice that is not ignored. -/
def exampleNoticed : LintResult where
  source := some "/repo/b.css"
  invalidOptions := [⟨"x"⟩]

/-- A report passes over an ignored result whose notice is given anyway; a report on the ignored result alone
is not empty. -/
theorem render_ignored_of_repeated :
    invalidTexts ([exampleNoticed, exampleIgnored].filter fun r => !r.ignored) =
        invalidTexts [exampleNoticed, exampleIgnored] ∧
      deprecated ([exampleNoticed, exampleIgnored].filter fun r => !r.ignored) =
        deprecated [exampleNoticed, exampleIgnored] ∧
      render {} { cwd := "/repo" } ([exampleNoticed, exampleIgnored].filter fun r => !r.ignored) =
        render {} { cwd := "/repo" } [exampleNoticed, exampleIgnored] ∧
      (∀ r ∈ [exampleIgnored], r.ignored = true) ∧
      render {} { cwd := "/repo" } [exampleIgnored] ≠ summaryText {} := by
  have hinvalid : invalidTexts ([exampleNoticed, exampleIgnored].filter fun r => !r.ignored) =
      invalidTexts [exampleNoticed, exampleIgnored] := by decide +kernel
  have hdeprecated : deprecated ([exampleNoticed, exampleIgnored].filter fun r => !r.ignored) =
      deprecated [exampleNoticed, exampleIgnored] := rfl
  have hignored : ∀ r ∈ [exampleIgnored], r.ignored = true := by decide
  have hnotices : ¬ ∀ r ∈ [exampleIgnored], r.invalidOptions = [] ∧ r.deprecations = [] := by decide
  have hrepeated := render_ignored {} { cwd := "/repo" } [exampleNoticed, exampleIgnored]
  have halone := render_ignored {} { cwd := "/repo" } [exampleIgnored]
  exact ⟨hinvalid, hdeprecated, hrepeated.2.1 hinvalid hdeprecated, hignored,
    mt (halone.2.2 hignored).mp hnotices⟩

/-- A report on an ignored result with a notice gives the notice; without the result it is empty. -/
theorem render_ignored_notice :
    render {} { cwd := "/repo" } [exampleIgnored] = "\nInvalid Option: x\n\n" ∧
      render {} { cwd := "/repo" } ([exampleIgnored].filter fun r => !r.ignored) = "" := by
  decide +kernel

end Console

end LintDebt
