import LintDebt.Proofs.Report.Console
import LintDebt.Proofs.Run.Formatter

/-!
# The verdict of a run and its report

A run is flagged by the diagnostics that are errors at its end, whether or not their results are
ignored.  Its report passes over ignored results, and counts parse errors with the errors.  So the two say
the same of a run unless one of these makes the difference.

* `LintDebt.Run.errored_workedOutcome`: when a run is flagged.
* `LintDebt.Run.output_workedOutcome`: what its report on a console says.
* `LintDebt.Run.errored_formatter`: when the flag and the report agree.
* `LintDebt.Run.formatter_reports_otherwise`: a parse error alone, and an ignored error.
-/

namespace LintDebt.Run

variable {o : RunOptions} {results : List LintResult} {out : RunOutcome}

/-- A run without a format reports on the console. -/
theorem format_eq_none_of_prepare {σ : Type} [Ledger σ] {s : σ} {format : Option ReportFormat}
    {policy : DecayPolicy} (hconsole : o.format = none) (h : prepare o s = .ok (format, policy)) :
    format = none := by
  have hformat := (format_and_policy_of_prepare h).1
  rw [formatOf?, hconsole] at hformat
  exact (Except.ok.inj hformat).symm

/-- A run is flagged when a diagnostic of some result is an error at its end. -/
theorem errored_workedOutcome (o : RunOptions) (format : Option ReportFormat) (policy : DecayPolicy)
    (p : Progress) : (workedOutcome o format policy p).errored = true ↔
      ∃ r ∈ (workedOutcome o format policy p).results, r.hasLiveErrors = true := by
  show (LintResult.settleAll p.results).any (·.errored) = true ↔
    ∃ r ∈ LintResult.settleAll p.results, r.hasLiveErrors = true
  have hflag : ∀ r ∈ LintResult.settleAll p.results, r.errored = r.hasLiveErrors := by
    intro r hr
    obtain ⟨r, -, rfl⟩ := List.mem_map.mp hr
    rfl
  rw [List.any_eq_true]
  exact exists_congr fun r => and_congr_right fun hr => by rw [hflag r hr]

/-- What a report on a console is to include after a run. -/
def consoleOptions (o : RunOptions) (policy : DecayPolicy) (tally : Tally) : Console.Options :=
  ⟨o.includeTodos, o.updating, some ⟨tally.added, tally.removed, policy.window⟩⟩

/-- The report of a run on the console is that of its results. -/
theorem output_workedOutcome (o : RunOptions) (policy : DecayPolicy) (p : Progress) :
    (workedOutcome o none policy p).output =
      Console.render (consoleOptions o policy p.tally) o.presentation
        (workedOutcome o none policy p).results := rfl

/-- An error is left in a result that is not ignored, or in one that is. -/
theorem exists_hasLiveErrors_iff (rs : List LintResult) :
    (∃ r ∈ rs, r.hasLiveErrors = true) ↔ (∃ r ∈ rs, r.ignored = false ∧ r.hasLiveErrors = true) ∨
      ∃ r ∈ rs, r.ignored = true ∧ r.hasLiveErrors = true := by
  constructor
  · rintro ⟨r, hr, hlive⟩
    cases hignored : r.ignored with
    | false => exact .inl ⟨r, hr, hignored, hlive⟩
    | true => exact .inr ⟨r, hr, hignored, hlive⟩
  · rintro (⟨r, hr, -, hlive⟩ | ⟨r, hr, -, hlive⟩)
    · exact ⟨r, hr, hlive⟩
    · exact ⟨r, hr, hlive⟩

/-- An error or a parse error is there to be shown. -/
theorem exists_shown_iff (rs : List LintResult) :
    (∃ r ∈ rs, r.ignored = false ∧ (r.hasLiveErrors = true ∨ r.parseErrors ≠ [])) ↔
      (∃ r ∈ rs, r.ignored = false ∧ r.hasLiveErrors = true) ∨
        ∃ r ∈ rs, r.ignored = false ∧ r.parseErrors ≠ [] := by
  simp only [and_or_left, exists_or]

/-- A run that reports on the console is flagged when a diagnostic of some result, ignored or not, is an
error at its end.  The report states the number of errors and parse errors in the results that are not
ignored.  So it counts an error exactly when the run is flagged, if an error is left in a result that is
not ignored, and otherwise if errors in ignored results and parse errors in the others come together or
not at all. -/
theorem errored_formatter {σ : Type} [Ledger σ] {read : σ → String → Option String} {s s' : σ}
    (hconsole : o.format = none) (hworking : o.compactOnly = false)
    (hy : Yields (formatter o read results) s out s') :
    ∃ shown : Console.Options, shown.includeTodos = o.includeTodos ∧
      out.output = Console.shownBody (Console.body shown o.presentation out.results) ++
        Console.tally o.includeTodos (Console.counts shown out.results) ++ Console.summaryText shown ∧
      (Console.counts shown out.results).errors = ((out.results.filter fun r => !r.ignored).map
        fun r => r.warnings.countP Diagnostic.isError + r.parseErrors.length).sum ∧
      (out.errored = true ↔ ∃ r ∈ out.results, r.hasLiveErrors = true) ∧
      ((out.errored = true ↔ 0 < (Console.counts shown out.results).errors) ↔
        (∃ r ∈ out.results, r.ignored = false ∧ r.hasLiveErrors = true) ∨
          ((∃ r ∈ out.results, r.ignored = true ∧ r.hasLiveErrors = true) ↔
            ∃ r ∈ out.results, r.ignored = false ∧ r.parseErrors ≠ [])) := by
  obtain ⟨format, policy, p, hprepared, -, rfl⟩ := (yields_formatter_iff hworking).mp hy
  obtain rfl := format_eq_none_of_prepare hconsole hprepared
  refine ⟨consoleOptions o policy p.tally, rfl, ?_, Console.errors_counts _ _,
    errored_workedOutcome o none policy p, ?_⟩
  · rw [output_workedOutcome, Console.render_eq]
    rfl
  · rw [errored_workedOutcome, Console.errors_counts_pos_iff, exists_hasLiveErrors_iff, exists_shown_iff]
    -- An error that is left and shown settles both sides; without one, only the other errors count.
    by_cases hleft : ∃ r ∈ (workedOutcome o none policy p).results,
        r.ignored = false ∧ r.hasLiveErrors = true
    · simp only [hleft, true_or]
    · simp only [hleft, false_or]

/-- What holds of the flag and the report of a run holds of the example run. -/
theorem errored_formatter_of_example :
    exampleCheck.format = none ∧ exampleCheck.compactOnly = false ∧
    ∃ out l', Yields (formatter exampleCheck exampleRead [exampleResult])
        (FileLedger.openIn FileLedger.exampleFiles "" FileLedger.exampleDay) out l' ∧
      ∃ shown : Console.Options, (Console.counts shown out.results).errors =
        ((out.results.filter fun r => !r.ignored).map
          fun r => r.warnings.countP Diagnostic.isError + r.parseErrors.length).sum := by
  obtain ⟨out, l', hy⟩ := exists_yields_example
  obtain ⟨shown, -, -, hcounts, -⟩ := errored_formatter rfl rfl hy
  exact ⟨rfl, rfl, out, l', hy, shown, hcounts⟩

/-- A result with a parse error alone. -/
def exampleUnparsed : LintResult where
  source := some "/repo/a.css"
  parseErrors := [{ line := 1, column := 1, kind := "css-syntax", text := "Unclosed block" }]

/-- The example result, when it is ignored. -/
def exampleIgnored : LintResult :=
  { exampleResult with ignored := true }

/-- A run on a result with a parse error alone is not flagged, and its report counts an error; a run on an
ignored result with an error is flagged, and its report is empty. -/
theorem formatter_reports_otherwise :
    (∃ out l', Yields (formatter exampleCheck exampleRead [exampleUnparsed])
        (FileLedger.openIn noFiles "" FileLedger.exampleDay) out l' ∧
      exampleCheck.format = none ∧ exampleCheck.compactOnly = false ∧ out.errored = false ∧
      out.output = "\na.css\n 1:1  ✖  Unclosed block  css-syntax\n\n1 problem (1 error, 0 warnings)\n\n") ∧
    ∃ out l', Yields (formatter exampleCheck exampleRead [exampleIgnored])
        (FileLedger.openIn noFiles "" FileLedger.exampleDay) out l' ∧
      out.errored = true ∧ out.output = "" := by
  constructor
  · obtain ⟨out, l', hy, hout⟩ := exists_yields_of_toOption (f := fun out => (out.errored, out.output))
      (x := formatter exampleCheck exampleRead [exampleUnparsed])
      (s := FileLedger.openIn noFiles "" FileLedger.exampleDay)
      (b := (false, "\na.css\n 1:1  ✖  Unclosed block  css-syntax\n\n1 problem (1 error, 0 warnings)\n\n"))
      (by decide +kernel)
    obtain ⟨herrored, houtput⟩ := Prod.mk.inj hout
    exact ⟨out, l', hy, rfl, rfl, herrored, houtput⟩
  · obtain ⟨out, l', hy, hout⟩ := exists_yields_of_toOption (f := fun out => (out.errored, out.output))
      (x := formatter exampleCheck exampleRead [exampleIgnored])
      (s := FileLedger.openIn noFiles "" FileLedger.exampleDay) (b := (true, "")) (by decide +kernel)
    obtain ⟨herrored, houtput⟩ := Prod.mk.inj hout
    exact ⟨out, l', hy, herrored, houtput⟩

end LintDebt.Run
