import LintDebt.Proofs.Run.Files
import LintDebt.Proofs.Run.Simulation

/-!
# A whole run

What a run that answers leaves: the live todos, and the results.

* `LintDebt.Run.yields_formatter_iff`, `LintDebt.Run.yields_formatter`: a run works on its files under the
  policy of the configuration.
* `LintDebt.Run.shows_formatter`: what it leaves, in terms of the live todos at its start.
* `LintDebt.Run.live_formatter`: the live todos afterwards.
* `LintDebt.Run.results_formatter`: the results that the run answers.
-/

namespace LintDebt.Run

open Candidates (keyOf isFirst)

variable {o : RunOptions} {read : FileLedger → String → Option String} {results : List LintResult}
  {l l' : FileLedger} {live : Batch} {out : RunOutcome}

/-- The format of a run is the one that its options name, and its policy is that of the ledger. -/
theorem format_and_policy_of_prepare {σ : Type} [Ledger σ] {s : σ} {format : Option ReportFormat}
    {policy : DecayPolicy} (h : prepare o s = .ok (format, policy)) :
    formatOf? o = .ok format ∧ Ledger.policy s o.engine o.overrides = .ok policy := by
  unfold prepare at h
  split at h
  · cases h
  · obtain ⟨format', hformat, h⟩ := bind_eq_ok.mp h
    split at h
    · cases h
    · obtain ⟨policy', hpolicy, h⟩ := bind_eq_ok.mp h
      cases h
      exact ⟨hformat, mapError_eq_ok.mp hpolicy⟩

/-- The policy of a run on a ledger in a file is that of the configuration. -/
theorem load_of_prepare {format : Option ReportFormat} {policy : DecayPolicy}
    (h : prepare o l = .ok (format, policy)) :
    Config.load l.files l.baseDir o.engine o.overrides = .ok policy :=
  (format_and_policy_of_prepare h).2

/-- What a run answers when it has worked on its files. -/
def workedOutcome (o : RunOptions) (format : Option ReportFormat) (policy : DecayPolicy) (p : Progress) :
    RunOutcome where
  output := report o format policy p.tally (LintResult.settleAll p.results)
  errored := LintResult.anyErrored (LintResult.settleAll p.results)
  tally := p.tally
  results := LintResult.settleAll p.results
  reads := p.reads

/-- A run that does more than shorten the storage works on its files once it is prepared. -/
theorem yields_formatter_iff {σ : Type} [Ledger σ] {read : σ → String → Option String} {s s' : σ}
    (hcompact : o.compactOnly = false) :
    Yields (formatter o read results) s out s' ↔
      ∃ format policy p, prepare o s = .ok (format, policy) ∧
        Yields ((List.range results.length).foldlM (advance o policy read) { results }) s p s' ∧
          out = workedOutcome o format policy p := by
  have hform : formatter o read results = get >>= fun s : σ =>
      ofExcept (prepare o s) >>= fun prepared =>
        (List.range results.length).foldlM (advance o prepared.2 read) { results } >>= fun p =>
          pure (workedOutcome o prepared.1 prepared.2 p) := by
    unfold formatter
    refine congrArg _ (funext fun s => congrArg _ (funext ?_))
    rintro ⟨format, policy⟩
    dsimp only
    rw [hcompact, if_neg Bool.false_ne_true]
    rfl
  rw [hform, yields_get_bind, yields_bind]
  constructor
  · rintro ⟨⟨format, policy⟩, s₁, hprepare, hrest⟩
    obtain ⟨hprepared, rfl⟩ := yields_ofExcept.mp hprepare
    obtain ⟨p, s₂, hfiles, hpure⟩ := yields_bind.mp hrest
    obtain ⟨rfl, rfl⟩ := yields_pure.mp hpure
    exact ⟨format, policy, p, hprepared, hfiles, rfl⟩
  · rintro ⟨format, policy, p, hprepared, hfiles, rfl⟩
    exact ⟨(format, policy), s, yields_ofExcept.mpr ⟨hprepared, rfl⟩,
      yields_bind.mpr ⟨p, s', hfiles, yields_pure.mpr ⟨rfl, rfl⟩⟩⟩

/-- A run that does more than shorten the storage works on its files under the policy of the
configuration, and answers their results with their flags brought up to date, and what it has counted. -/
theorem yields_formatter (hcompact : o.compactOnly = false)
    (hy : Yields (formatter o read results) l out l') :
    ∃ policy p, Config.load l.files l.baseDir o.engine o.overrides = .ok policy ∧
      Yields ((List.range results.length).foldlM (advance o policy read) { results }) l p l' ∧
        out.results = LintResult.settleAll p.results ∧ out.tally = p.tally := by
  obtain ⟨format, policy, p, hprepared, hfiles, rfl⟩ := (yields_formatter_iff hcompact).mp hy
  exact ⟨policy, p, load_of_prepare hprepared, hfiles, rfl, rfl⟩

/-- A run that cannot be prepared fails, and leaves the ledger as it is. -/
theorem run_formatter_of_prepare {e : RunError} (hprepare : prepare o l = .error e) :
    (formatter o read results).run.run l = (.error e, l) := by
  unfold formatter
  show (ofExcept (prepare o l) >>= _ : RunM FileLedger RunOutcome).run.run l = _
  rw [hprepare]
  rfl

/-- A run that only shortens the storage writes the log anew once it is prepared. -/
theorem yields_formatter_compact (hcompact : o.compactOnly = true) :
    Yields (formatter o read results) l out l' ↔
      ∃ prepared n, prepare o l = .ok prepared ∧ Yields FileLedger.compact l n l' ∧
        out = compactOutcome n results := by
  have hform : formatter o read results = get >>= fun l : FileLedger =>
      ofExcept (prepare o l) >>= fun _ =>
        onLedger FileLedger.compact >>= fun n => pure (compactOutcome n results) := by
    unfold formatter
    refine congrArg _ (funext fun l => congrArg _ (funext fun (format, policy) => ?_))
    dsimp only
    rw [hcompact, if_pos rfl]
    rfl
  rw [hform, yields_get_bind, yields_bind]
  constructor
  · rintro ⟨prepared, l₁, hprepare, hrest⟩
    obtain ⟨hprepared, rfl⟩ := yields_ofExcept.mp hprepare
    obtain ⟨n, l₂, hcompacted, hpure⟩ := yields_bind.mp hrest
    obtain ⟨rfl, rfl⟩ := yields_pure.mp hpure
    exact ⟨prepared, n, hprepared, yields_onLedger.mp hcompacted, rfl⟩
  · rintro ⟨prepared, n, hprepared, hcompacted, rfl⟩
    exact ⟨prepared, l, yields_ofExcept.mpr ⟨hprepared, rfl⟩,
      yields_bind.mpr ⟨n, l', yields_onLedger.mpr hcompacted, yields_pure.mpr ⟨rfl, rfl⟩⟩⟩

/-- What a run on different files leaves: the live todos that are told file by file, and the results held
against those that were live at its start and those that it wrote for their files. -/
theorem shows_formatter (hcompact : o.compactOnly = false) (h : l.Shows live)
    (hapart : FilesApart o results live) (hy : Yields (formatter o read results) l out l') :
    ∃ policy live', Config.load l.files l.baseDir o.engine o.overrides = .ok policy ∧
      l'.Shows live' ∧
      live'.toList = liveAfterFirst o policy read results l live results.length ∧
      out.results = results.mapIdx fun i r => (heldAgainst o l
        (live.toList ++ addedFor o policy read results l live i r) r).settle := by
  obtain ⟨policy, p, hload, hfiles, hresults, -⟩ := yields_formatter hcompact hy
  obtain ⟨-, ⟨live', hshows, hlist⟩, hheld⟩ := shows_files h hapart (Nat.le_refl _) hfiles
  refine ⟨policy, live', hload, hshows, hlist, ?_⟩
  rw [hresults, hheld, resultsAfterFirst, List.take_length, List.drop_length, List.append_nil,
    LintResult.settleAll, map_mapIdx]

/-- A result keeps its diagnostics when its flag is brought up to date. -/
theorem warnings_settle (r : LintResult) : r.settle.warnings = r.warnings := rfl

/-- The diagnostics of a result stay at their places when it is held against live todos. -/
theorem getElem?_heldAgainst {ts : List Todo} {r : LintResult} {place : Nat} {d : Diagnostic}
    (h : r.warnings[place]? = some d) :
    (heldAgainst o l ts r).warnings[place]? =
      some (d.demoted (newSeverity? o l ts r place d)) := by
  have hlt := (List.getElem?_eq_some_iff.mp h).1
  show (r.warnings.mapIdx _ ++ _)[place]? = _
  rw [List.getElem?_append_left (by rwa [List.length_mapIdx]), List.getElem?_mapIdx, h]
  rfl

/-- A diagnostic changes its severity when it is the first error with its key and a todo that has not
expired has this key. -/
theorem severity_demoted_ne_iff {ts : List Todo} {r : LintResult} {place : Nat} {d : Diagnostic} :
    (d.demoted (newSeverity? o l ts r place d)).severity ≠ d.severity ↔
      isFirst o.engine (r.path o.baseDir) r.warnings place d = true ∧
        ∃ t, ts.find? (·.key == keyOf o.engine (r.path o.baseDir) d) = some t ∧
          l.isExpired t = false := by
  unfold newSeverity?
  split
  · next hfirst =>
    have herror : d.severity = .error := beq_iff_eq.mp (Bool.and_eq_true_iff.mp hfirst).1
    cases hfind : ts.find? (·.key == keyOf o.engine (r.path o.baseDir) d) with
    | none => simp [Diagnostic.demoted]
    | some t =>
      cases hexp : l.isExpired t with
      | true => simp [Diagnostic.demoted, hexp]
      | false => cases hcome : l.hasCome t.warnDate <;>
          simp [Diagnostic.demoted, hexp, hfirst, herror, hcome]
  · next hfirst => simp [Diagnostic.demoted, hfirst]

/-- The live todos after a run: those that were live before, but for the todos of its files that it takes
out, and behind them, in update mode, one for each new key of an error. -/
theorem live_formatter (hcompact : o.compactOnly = false) (hreads : l.Reads live)
    (hcache : ∀ b ∈ l.cache, b = live) (hapart : FilesApart o results live)
    (hy : Yields (formatter o read results) l out l') :
    ∃ policy live', Config.load l.files l.baseDir o.engine o.overrides = .ok policy ∧
      l'.currentLive = .ok live' ∧ (l.EndsWhole → l'.Reads live') ∧
        live'.toList = live.toList.filter (fun t => results.all (outlasts o l · t)) ++
          (results.mapIdx fun i r => (addedFor o policy read results l live i r).filter
            fun t => !(o.cleaning && l.isExpired t)).flatten := by
  obtain ⟨policy, live', hload, hshows, hlist, -⟩ :=
    shows_formatter hcompact (hreads.shows hcache) hapart hy
  refine ⟨policy, live', hload, hshows.current, fun hends => ?_, ?_⟩
  · obtain ⟨after, hcoherent⟩ := (ends_formatter FileLedger.invariant_coherent
      ⟨live, hreads, hcache, hends⟩ o read results).of_yields hy
    have hsame : after = live' :=
      Except.ok.inj (hcoherent.currentLive_eq.symm.trans hshows.current)
    exact hsame ▸ hcoherent.reads
  · rw [hlist, liveAfterFirst, addedByFirst, List.take_length]

/-- A run in update mode under a window whose todos weigh as errors at once. -/
def exampleUpdate : RunOptions where
  baseDir := "/repo"
  updating := true
  overrides := ⟨none, some 0⟩
  presentation := { cwd := "/repo" }

/-- A run that only holds the results against the ledger. -/
def exampleCheck : RunOptions where
  baseDir := "/repo"
  presentation := { cwd := "/repo" }

/-- A result with the error that the example todo stands for. -/
def exampleResult : LintResult where
  source := some "/repo/a.css"
  warnings := [{ line := 1, column := 1, endColumn := some 4, rule := some "color", severity := .error }]

/-- The identity of the error of the example result. -/
def isExample (t : Todo) : Bool :=
  t.engine == "stylelint" && t.filePath == "a.css" && t.ruleId == "color" &&
    t.span == ⟨⟨1, 1⟩, ⟨1, 4⟩⟩

/-- Todos with one identity are told apart. -/
theorem distinguishable_of_isExample {ts : List Todo} (h : ts.all isExample = true) :
    Todo.Distinguishable ts := by
  have hparts (t : Todo) (ht : t ∈ ts) : ((t.engine = "stylelint" ∧ t.filePath = "a.css") ∧
      t.ruleId = "color") ∧ t.span = ⟨⟨1, 1⟩, ⟨1, 4⟩⟩ := by
    have hone := List.all_eq_true.mp h t ht
    simpa only [isExample, Bool.and_eq_true, beq_iff_eq] using hone
  intro t ht u hu _
  obtain ⟨⟨⟨hengine, hpath⟩, hrule⟩, hspan⟩ := hparts t ht
  obtain ⟨⟨⟨hengine', hpath'⟩, hrule'⟩, hspan'⟩ := hparts u hu
  exact ⟨hengine.trans hengine'.symm, hpath.trans hpath'.symm, hrule.trans hrule'.symm,
    hspan.trans hspan'.symm⟩

/-- The example result has one error. -/
theorem errorsOf_example {o : RunOptions} (hengine : o.engine = "stylelint")
    (hdir : o.baseDir = "/repo") :
    errorsOf o exampleResult = [Candidates.identity "stylelint" "a.css"
      { line := 1, column := 1, endColumn := some 4, rule := some "color", severity := .error }] := by
  have hpath : exampleResult.path "/repo" = "a.css" := by decide +kernel
  unfold errorsOf
  rw [hengine, hdir, hpath]
  rfl

/-- Files without any log. -/
def noFiles : FileTree where
  root := .directory []

/-- The text of a file among those of a ledger. -/
def exampleRead (l : FileLedger) (path : String) : Option String :=
  l.files.readText? path

/-- When the todos that a run writes have expired at once, it takes them out again in the same step: not
every new key of an error is live afterwards. -/
theorem live_formatter_forgets_expired :
    exampleUpdate.compactOnly = false ∧
      (FileLedger.openIn noFiles "" FileLedger.exampleDay).Reads .empty ∧
      FilesApart exampleUpdate [exampleResult] .empty ∧
      ∃ out l', Yields (formatter exampleUpdate exampleRead [exampleResult])
          (FileLedger.openIn noFiles "" FileLedger.exampleDay) out l' ∧
        ¬ ∃ policy live', Config.load noFiles "" exampleUpdate.engine exampleUpdate.overrides =
            .ok policy ∧
          l'.currentLive = .ok live' ∧
            live'.toList = Batch.empty.toList.filter (fun t => [exampleResult].all
                (outlasts exampleUpdate (.openIn noFiles "" FileLedger.exampleDay) · t)) ++
              ([exampleResult].mapIdx fun i r => addedFor exampleUpdate policy exampleRead
                [exampleResult] (.openIn noFiles "" FileLedger.exampleDay) .empty i r).flatten := by
  refine ⟨rfl, rfl, ⟨?_, ?_, ?_⟩, ?_⟩
  · intro r hr
    rw [List.mem_singleton.mp hr]
    decide +kernel
  · exact List.nodup_singleton _
  · apply distinguishable_of_isExample
    rw [List.all_append, List.flatMap_singleton, errorsOf_example rfl rfl]
    rfl
  · obtain ⟨out, l', hy⟩ := exists_yields_of_isOk (x := formatter exampleUpdate exampleRead
      [exampleResult]) (s := .openIn noFiles "" FileLedger.exampleDay) (by decide +kernel)
    refine ⟨out, l', hy, ?_⟩
    rintro ⟨policy, live', -, hcurrent, hlist⟩
    have hnone : (match ((formatter exampleUpdate exampleRead [exampleResult]).run.run
        (FileLedger.openIn noFiles "" FileLedger.exampleDay)).2.currentLive with
      | .ok b => b.toList
      | .error _ => []) = [] := by decide +kernel
    rw [show (formatter exampleUpdate exampleRead [exampleResult]).run.run
      (FileLedger.openIn noFiles "" FileLedger.exampleDay) = (.ok out, l') from hy, hcurrent] at hnone
    replace hnone : live'.toList = [] := hnone
    rw [hnone] at hlist
    have hone (contents : Option String) : (newTodos exampleUpdate policy
        (.openIn noFiles "" FileLedger.exampleDay) .empty contents exampleResult).length = 1 := by
      unfold newTodos
      rw [show exampleUpdate.updating = true from rfl, if_pos rfl, List.length_map]
      decide +kernel
    have hlength := congrArg List.length hlist
    rw [List.length_append, List.mapIdx_cons, List.mapIdx_nil, List.flatten_singleton, addedFor,
      hone] at hlength
    cases hlength

/-- The live todos of the example log. -/
def exampleLive : Batch :=
  LogEntry.live [⟨.add, FileLedger.exampleTodo⟩]

/-- The example log has one live todo. -/
theorem toList_exampleLive : exampleLive.toList = [FileLedger.exampleTodo.stored] :=
  (Batch.toList_insert .empty _).trans (if_neg List.not_mem_nil)

/-- The example log reads as its live todos. -/
theorem reads_example :
    (FileLedger.openIn FileLedger.exampleFiles "" FileLedger.exampleDay).Reads exampleLive :=
  FileLedger.reads_of_encode rfl

/-- The error of the example result is the only identity there is. -/
theorem filesApart_exampleResult (hengine : o.engine = "stylelint") (hdir : o.baseDir = "/repo") :
    FilesApart o [exampleResult] exampleLive := by
  refine ⟨?_, List.nodup_singleton _, ?_⟩
  · intro r hr
    rw [List.mem_singleton.mp hr, hdir]
    decide +kernel
  · apply distinguishable_of_isExample
    rw [toList_exampleLive, List.all_append, List.flatMap_singleton, errorsOf_example hengine hdir]
    rfl

/-- The example run is on files that are apart. -/
theorem filesApart_example : FilesApart exampleCheck [exampleResult] exampleLive :=
  filesApart_exampleResult rfl rfl

/-- The example run answers. -/
theorem exists_yields_example :
    ∃ out l', Yields (formatter exampleCheck exampleRead [exampleResult])
      (FileLedger.openIn FileLedger.exampleFiles "" FileLedger.exampleDay) out l' :=
  exists_yields_of_remembering (fun _ _ => rfl) rfl (reads_example.shows nofun).current
    (by decide +kernel)

/-- What holds of the live todos after a run holds of the example run. -/
theorem live_formatter_of_example :
    ∃ out l', Yields (formatter exampleCheck exampleRead [exampleResult])
        (FileLedger.openIn FileLedger.exampleFiles "" FileLedger.exampleDay) out l' ∧
      ∃ policy live', Config.load FileLedger.exampleFiles "" exampleCheck.engine
          exampleCheck.overrides = .ok policy ∧
        l'.currentLive = .ok live' ∧
          ((FileLedger.openIn FileLedger.exampleFiles "" FileLedger.exampleDay).EndsWhole →
            l'.Reads live') ∧
          live'.toList = exampleLive.toList.filter (fun t => [exampleResult].all
              (outlasts exampleCheck (.openIn FileLedger.exampleFiles "" FileLedger.exampleDay) · t)) ++
            ([exampleResult].mapIdx fun i r => (addedFor exampleCheck policy exampleRead [exampleResult]
              (.openIn FileLedger.exampleFiles "" FileLedger.exampleDay) exampleLive i r).filter
                fun t => !(exampleCheck.cleaning && FileLedger.isExpired
                  (.openIn FileLedger.exampleFiles "" FileLedger.exampleDay) t)).flatten := by
  obtain ⟨out, l', hy⟩ := exists_yields_example
  exact ⟨out, l', hy, live_formatter rfl reads_example nofun filesApart_example hy⟩

/-- The results of a run: in each, the first errors of their keys get the severities of the live todos with
these keys, and in a run that takes nothing out the todos that no error reproduces are reported; no other
diagnostic changes its severity. -/
theorem results_formatter (hcompact : o.compactOnly = false) (hreads : l.Reads live)
    (hcache : ∀ b ∈ l.cache, b = live) (hapart : FilesApart o results live)
    (hy : Yields (formatter o read results) l out l') :
    ∃ policy, Config.load l.files l.baseDir o.engine o.overrides = .ok policy ∧
      (out.results = results.mapIdx fun i r => (heldAgainst o l
        (live.toList ++ addedFor o policy read results l live i r) r).settle) ∧
      ∀ i r place d, results[i]? = some r → r.warnings[place]? = some d →
        ∃ r' d', out.results[i]? = some r' ∧ r'.warnings[place]? = some d' ∧
          (d'.severity ≠ d.severity ↔
            isFirst o.engine (r.path o.baseDir) r.warnings place d = true ∧
              ∃ t, (live.toList ++ addedFor o policy read results l live i r).find?
                  (·.key == keyOf o.engine (r.path o.baseDir) d) = some t ∧
                l.isExpired t = false) := by
  obtain ⟨policy, -, hload, -, -, hform⟩ := shows_formatter hcompact (hreads.shows hcache) hapart hy
  refine ⟨policy, hload, hform, fun i r place d hi hplace => ?_⟩
  have hresult : out.results[i]? = some (heldAgainst o l
      (live.toList ++ addedFor o policy read results l live i r) r).settle := by
    rw [hform, List.getElem?_mapIdx, hi]
    rfl
  refine ⟨_, _, hresult, ?_, severity_demoted_ne_iff⟩
  rw [warnings_settle]
  exact getElem?_heldAgainst hplace

/-- What holds of the results of a run holds of the example run. -/
theorem results_formatter_of_example :
    ∃ out l', Yields (formatter exampleCheck exampleRead [exampleResult])
        (FileLedger.openIn FileLedger.exampleFiles "" FileLedger.exampleDay) out l' ∧
      ∃ policy, Config.load FileLedger.exampleFiles "" exampleCheck.engine
          exampleCheck.overrides = .ok policy ∧
        (out.results = [exampleResult].mapIdx fun i r => (heldAgainst exampleCheck
          (.openIn FileLedger.exampleFiles "" FileLedger.exampleDay)
            (exampleLive.toList ++ addedFor exampleCheck policy exampleRead [exampleResult]
              (.openIn FileLedger.exampleFiles "" FileLedger.exampleDay) exampleLive i r) r).settle) := by
  obtain ⟨out, l', hy⟩ := exists_yields_example
  obtain ⟨policy, hload, hresults, -⟩ :=
    results_formatter rfl reads_example nofun filesApart_example hy
  exact ⟨out, l', hy, policy, hload, hresults⟩

end LintDebt.Run
