import LintDebt.Proofs.Run.Schedule

/-!
# Histories of runs

Runs follow each other on any days, with any options and configurations, on a ledger that is kept or opened
anew.  A todo that one of them wrote keeps its dates, and the runs that reproduce it follow these dates.

* `LintDebt.Visit`: a run as it takes place.
* `LintDebt.Reachable`: the ledgers that any runs leave.
* `LintDebt.History`: runs that all answer, where those that do more than shorten the log reproduce a key.
* `LintDebt.Visit.holds_of_answers`, `LintDebt.History.holds`: a todo stays live through a run, and through a
  history, until its error date has come.
* `LintDebt.decay_schedule`: from the run that writes a todo on, its dates alone decide.
-/

namespace LintDebt

open Run (FilesApart FirstAt errorKeys errorsOf formatter severityAt?)

/-- A run as it takes place. -/
structure Visit where
  /-- Whether the ledger is opened anew, and not the one that the run before left. -/
  reopening : Bool
  today : Date
  /-- The files that the run finds. -/
  files : FileTree
  options : RunOptions
  /-- The text of a source file. -/
  read : FileLedger → String → Option String
  results : List LintResult

namespace Visit

/-- The ledger that a run starts on, when the run before left a ledger. -/
def enter (v : Visit) (l : FileLedger) : FileLedger :=
  if v.reopening then .openIn v.files l.baseDir v.today
  else { l with files := v.files, today := v.today }

/-- The run finds the log as the run before left it; all other files may have changed. -/
def Finds (v : Visit) (l : FileLedger) : Prop :=
  v.files.contents? l.storagePath = l.files.contents? l.storagePath

/-- The run answers, and leaves a ledger. -/
def Answers (v : Visit) (l : FileLedger) (out : RunOutcome) (l' : FileLedger) : Prop :=
  Yields (formatter v.options v.read v.results) (v.enter l) out l'

/-- The ledger that a run leaves, whether it answers or fails. -/
def after (v : Visit) (l : FileLedger) : FileLedger :=
  ((formatter v.options v.read v.results).run.run (v.enter l)).2

/-- The results are for different files, all with a path; among the live todos and the errors different
identities have different keys; and the key is that of an error. -/
structure Reproduces (v : Visit) (key : String) (l : FileLedger) : Prop where
  paths : ∀ r ∈ v.results, r.path v.options.baseDir ≠ ""
  nodup_paths : (v.results.map (LintResult.path v.options.baseDir)).Nodup
  distinguishable : ∀ live, (v.enter l).currentLive = .ok live →
    Todo.Distinguishable (live.toList ++ v.results.flatMap (errorsOf v.options))
  found : ∃ r ∈ v.results, (errorKeys v.options r).contains key = true

/-- The run is an update that writes a todo for the key, which is not live before, under a window. -/
structure Writes (v : Visit) (key : String) (window : DecayWindow) (l : FileLedger)
    (out : RunOutcome) (l' : FileLedger) : Prop where
  finds : v.Finds l
  updating : v.options.updating = true
  working : v.options.compactOnly = false
  reproduces : v.Reproduces key l
  fresh : ∀ live, (v.enter l).currentLive = .ok live → live.contains key = false
  underWindow : ∃ policy,
    Config.load v.files l.baseDir v.options.engine v.options.overrides = .ok policy ∧
      ∃ r ∈ v.results, ∃ e ∈ errorsOf v.options r, e.key = key ∧
        (policy.windowFor e.ruleId).getD {} = window
  answers : v.Answers l out l'

end Visit

/-- The ledgers that runs leave from an opening on, whether they answer or fail. -/
inductive Reachable : FileLedger → Prop
  | opened (files : FileTree) (baseDir : String) (today : Date) :
    Reachable (.openIn files baseDir today)
  | after {l : FileLedger} (v : Visit) : Reachable l → v.Finds l → Reachable (v.after l)

/-- Runs that all answer, one after the other; those that do more than shorten the log reproduce the
key. -/
inductive History (key : String) : FileLedger → List Visit → FileLedger → Prop
  | nil (l : FileLedger) : History key l [] l
  | cons {l l' l'' : FileLedger} {v : Visit} {out : RunOutcome} {vs : List Visit} :
    v.Finds l → (v.options.compactOnly = false → v.Reproduces key l) → v.Answers l out l' →
      History key l' vs l'' → History key l (v :: vs) l''

/-- The todo is live as it stands. -/
def Holds (l : FileLedger) (x : Todo) : Prop :=
  ∃ live, l.currentLive = .ok live ∧ x ∈ live.toList

variable {v : Visit} {l l' l'' : FileLedger} {live other : Batch} {key : String} {x : Todo}
  {out : RunOutcome} {vs : List Visit} {window : DecayWindow}

/-! ## Entering -/

namespace Visit

/-- A run works on the files that it finds. -/
@[simp] theorem files_enter : (v.enter l).files = v.files := by
  unfold enter
  split <;> rfl

/-- A run works in the directory of the ledger. -/
@[simp] theorem baseDir_enter : (v.enter l).baseDir = l.baseDir := by
  unfold enter
  split <;> rfl

/-- A run works on its day. -/
@[simp] theorem today_enter : (v.enter l).today = v.today := by
  unfold enter
  split <;> rfl

/-- A run on a ledger that is kept starts with what this remembers. -/
theorem cache_enter : (v.enter l).cache = if v.reopening then none else l.cache := by
  unfold enter
  split <;> rfl

/-- A run that finds the log as it was starts on the entries that were there. -/
theorem readEntries_enter (hfinds : v.Finds l) : (v.enter l).readEntries = l.readEntries := by
  apply FileLedger.readEntries_congr baseDir_enter
  rw [files_enter]
  exact hfinds

/-- A run starts on a faithful ledger. -/
theorem faithful_enter (h : l.Faithful) (hfinds : v.Finds l) : (v.enter l).Faithful := by
  cases hopen : v.reopening with
  | true =>
    rw [enter, if_pos hopen]
    exact FileLedger.faithful_openIn _ _ _
  | false =>
    rw [enter, if_neg (by rw [hopen]; exact Bool.false_ne_true)]
    exact h.congr rfl hfinds rfl

/-- If the live todos can be read, a run starts on those that were live. -/
theorem currentLive_enter (h : l.Faithful) (hfinds : v.Finds l) (hcurrent : l.currentLive = .ok live)
    (henter : (v.enter l).currentLive = .ok other) : other = live := by
  have hread := readEntries_enter hfinds
  have hreads (hnone : (v.enter l).cache = none) : other = live := by
    apply h.eq_of_reads hcurrent
    unfold FileLedger.currentLive at henter
    rw [hnone, hread] at henter
    exact henter
  cases hopen : v.reopening with
  | true =>
    apply hreads
    rw [cache_enter, hopen, if_pos rfl]
  | false =>
    have hcache : (v.enter l).cache = l.cache := by
      rw [cache_enter, hopen, if_neg Bool.false_ne_true]
    cases hl : l.cache with
    | none => exact hreads (hcache.trans hl)
    | some b =>
      unfold FileLedger.currentLive at hcurrent henter
      rw [hl] at hcurrent
      rw [hcache, hl] at henter
      cases hcurrent
      cases henter
      rfl

/-- A run leaves a faithful ledger, whether it answers or fails. -/
theorem faithful_after (h : l.Faithful) (hfinds : v.Finds l) : (v.after l).Faithful :=
  Run.ends_formatter FileLedger.invariant_faithful (faithful_enter h hfinds) v.options v.read v.results

/-- A run that answers leaves a faithful ledger. -/
theorem Answers.faithful (hy : v.Answers l out l') (h : l.Faithful) (hfinds : v.Finds l) :
    l'.Faithful :=
  (Run.ends_formatter FileLedger.invariant_faithful (faithful_enter h hfinds) v.options v.read
    v.results).of_yields hy

end Visit

/-- Every ledger that runs leave is faithful. -/
theorem Reachable.faithful (h : Reachable l) : l.Faithful := by
  induction h with
  | opened files baseDir today => exact FileLedger.faithful_openIn files baseDir today
  | after v _ hfinds ih => exact Visit.faithful_after ih hfinds

/-! ## One run -/

namespace Visit

/-- A run that does more than shorten the log starts on live todos among which its files are told
apart. -/
theorem Reproduces.exists_shows (h : v.Reproduces key l) (hworking : v.options.compactOnly = false)
    (hfaithful : l.Faithful) (hfinds : v.Finds l) (hy : v.Answers l out l') :
    ∃ live, (v.enter l).Shows live ∧ FilesApart v.options v.results live := by
  obtain ⟨r, hr, -⟩ := h.found
  obtain ⟨live, hlive⟩ := Run.exists_currentLive hworking h.paths hr hy
  exact ⟨live, (faithful_enter hfaithful hfinds).shows hlive,
    ⟨h.paths, h.nodup_paths, h.distinguishable live hlive⟩⟩

/-- A run that does more than shorten the log starts on the todos that are live, when one is. -/
theorem Reproduces.exists_shows_mem (h : v.Reproduces key l)
    (hworking : v.options.compactOnly = false) (hfaithful : l.Faithful) (hfinds : v.Finds l)
    (hx : Holds l x) (hy : v.Answers l out l') :
    ∃ live, (v.enter l).Shows live ∧ FilesApart v.options v.results live ∧ x ∈ live.toList := by
  obtain ⟨live, hcurrent, hmem⟩ := hx
  obtain ⟨found, hshows, hapart⟩ := h.exists_shows hworking hfaithful hfinds hy
  obtain rfl := currentLive_enter hfaithful hfinds hcurrent hshows.current
  exact ⟨found, hshows, hapart, hmem⟩

/-- A run that only shortens the log leaves every live todo. -/
theorem holds_of_compact (hfaithful : l.Faithful) (hfinds : v.Finds l) (hx : Holds l x)
    (hcompact : v.options.compactOnly = true) (hy : v.Answers l out l') : Holds l' x := by
  obtain ⟨live, hcurrent, hmem⟩ := hx
  obtain ⟨prepared, n, -, hshort, -⟩ := (Run.yields_formatter_compact hcompact).mp hy
  obtain ⟨found, hfound⟩ := FileLedger.exists_currentLive_of_compact hshort
  obtain rfl := currentLive_enter hfaithful hfinds hcurrent hfound
  exact ⟨found, (faithful_enter hfaithful hfinds).currentLive_compact hfound hshort, hmem⟩

/-- A todo stays live through a run that reproduces it, or only shortens the log, unless its error date has
come. -/
theorem holds_of_answers (hfaithful : l.Faithful) (hfinds : v.Finds l) (hx : Holds l x)
    (hworks : v.options.compactOnly = false →
      v.Reproduces x.key l ∧ reached x.errorDate v.today = false)
    (hy : v.Answers l out l') : Holds l' x := by
  cases hcompact : v.options.compactOnly with
  | true => exact holds_of_compact hfaithful hfinds hx hcompact hy
  | false =>
    obtain ⟨hreproduces, hkept⟩ := hworks hcompact
    obtain ⟨live, hshows, hapart, hmem⟩ :=
      hreproduces.exists_shows_mem hcompact hfaithful hfinds hx hy
    obtain ⟨r, hr, hkey⟩ := hreproduces.found
    have hexp : (v.enter l).isExpired x = false := by
      rw [FileLedger.isExpired, FileLedger.hasCome_eq_reached, today_enter]
      exact hkept
    obtain ⟨live', hshows', hmem'⟩ :=
      Run.shows_of_mem_live hcompact hshows hapart hy hmem hr hkey fun _ => hexp
    exact ⟨live', hshows'.current, hmem'⟩

/-- A run that reproduces a live todo gives the first error with its key the severity that the dates of the
todo have on the day of the run. -/
theorem severityAt?_of_answers (hfaithful : l.Faithful) (hfinds : v.Finds l) (hx : Holds l x)
    (hworking : v.options.compactOnly = false) (h : v.Reproduces x.key l) (hy : v.Answers l out l') :
    (∃ i place, FirstAt v.options v.results x.key i place) ∧
      ∀ i place, FirstAt v.options v.results x.key i place →
        severityAt? out.results i place = some (severityOn v.today x.warnDate x.errorDate) := by
  obtain ⟨live, hshows, hapart, hmem⟩ := h.exists_shows_mem hworking hfaithful hfinds hx hy
  obtain ⟨r, hr, hkey⟩ := h.found
  refine ⟨Run.exists_firstAt hr hkey, fun i place hat => ?_⟩
  rw [Run.severityAt?_of_mem_live hworking hshows hapart hy hmem hat,
    FileLedger.severity_eq_severityOn, today_enter]

end Visit

/-! ## All runs -/

namespace History

/-- A history leaves a faithful ledger. -/
theorem faithful (h : History key l vs l') (hfaithful : l.Faithful) : l'.Faithful := by
  induction h with
  | nil l => exact hfaithful
  | cons hfinds _ hy _ ih => exact ih (hy.faithful hfaithful hfinds)

/-- A todo stays live through a history as long as no run that reproduces it is on a day on which its error
date has come. -/
theorem holds (h : History x.key l vs l') (hfaithful : l.Faithful) (hx : Holds l x)
    (hkept : ∀ v ∈ vs, v.options.compactOnly = false → reached x.errorDate v.today = false) :
    Holds l' x := by
  induction h with
  | nil l => exact hx
  | cons hfinds hworks hy _ ih =>
    refine ih (hy.faithful hfaithful hfinds) ?_ fun w hw => hkept w (List.mem_cons_of_mem _ hw)
    exact Visit.holds_of_answers hfaithful hfinds hx
      (fun hcompact => ⟨hworks hcompact, hkept _ List.mem_cons_self hcompact⟩) hy

end History

/-- From the run that writes a todo for a key on: the todo has the day of that run and the dates of its
window; it stays live as it is, whatever runs reproduce it, until one of them is on a day on which its error
date has come; and each of these runs, that last one included, gives the first error with the key the severity
of its day. -/
theorem decay_schedule (hreachable : Reachable l) (hwrites : v.Writes key window l out l') :
    ∃ x : Todo, x.key = key ∧ x.createdDate = some v.today ∧
      x.warnDate = deadline v.today window.warn ∧ x.errorDate = deadline v.today window.error ∧
      (∀ i place, FirstAt v.options v.results key i place →
        severityAt? out.results i place = some (severityOn v.today x.warnDate x.errorDate)) ∧
      ((v.options.cleaning = true → reached x.errorDate v.today = false) →
        ∀ vs l₁, History key l' vs l₁ →
          (∀ w ∈ vs, w.options.compactOnly = false → reached x.errorDate w.today = false) →
            Holds l₁ x ∧ ∀ (w : Visit) out' l₂, w.Finds l₁ → w.options.compactOnly = false →
              w.Reproduces key l₁ → w.Answers l₁ out' l₂ →
                (∃ i place, FirstAt w.options w.results key i place) ∧
                  ∀ i place, FirstAt w.options w.results key i place →
                    severityAt? out'.results i place =
                      some (severityOn w.today x.warnDate x.errorDate)) := by
  have hfaithful := hreachable.faithful
  obtain ⟨live, hshows, hapart⟩ := hwrites.reproduces.exists_shows hwrites.working hfaithful
    hwrites.finds hwrites.answers
  obtain ⟨policy, hload, r, hr, e, he, rfl, rfl⟩ := hwrites.underWindow
  obtain ⟨policy', x, hload', hkey, hcreated, hwarn, herror, hseverity, hlive⟩ :=
    Run.shows_of_new hwrites.working hwrites.updating hshows hapart hwrites.answers hr he
      (hwrites.fresh live hshows.current)
  rw [Visit.files_enter, Visit.baseDir_enter, hload] at hload'
  cases hload'
  rw [Visit.today_enter] at hcreated hwarn herror
  refine ⟨x, hkey, hcreated, hwarn, herror, ?_, ?_⟩
  · intro i place hat
    rw [hseverity i place hat, FileLedger.severity_eq_severityOn, Visit.today_enter]
  · intro hcleaning vs l₁ hhistory hkept
    rw [← hkey] at hhistory ⊢
    have hafter : Holds l' x := by
      obtain ⟨live', hshows', hmem⟩ := hlive fun hclean => by
        rw [FileLedger.isExpired, FileLedger.hasCome_eq_reached, Visit.today_enter]
        exact hcleaning hclean
      exact ⟨live', hshows'.current, hmem⟩
    have hfaithful' := hwrites.answers.faithful hfaithful hwrites.finds
    have hheld := hhistory.holds hfaithful' hafter hkept
    refine ⟨hheld, fun w out' l₂ hfinds hworking hreproduces hy => ?_⟩
    exact Visit.severityAt?_of_answers (hhistory.faithful hfaithful') hfinds hheld hworking
      hreproduces hy

/-- An update that writes the error of the example result, to weigh as a warning after five days and as an
error after ten. -/
def exampleWriting : Visit where
  reopening := false
  today := FileLedger.exampleDay
  files := Run.noFiles
  options := { Run.exampleUpdate with overrides := ⟨some 5, some 10⟩ }
  read := Run.exampleRead
  results := [Run.exampleResult]

/-- A run that finds the same error some days later, on the ledger that was left. -/
def exampleChecking (l : FileLedger) (days : Nat) : Visit where
  reopening := false
  today := (FileLedger.exampleDay.addDays? days).getD FileLedger.exampleDay
  files := l.files
  options := Run.exampleCheck
  read := Run.exampleRead
  results := [Run.exampleResult]

/-- A ledger without any log. -/
def exampleStart : FileLedger :=
  .openIn Run.noFiles "" FileLedger.exampleDay

/-- The ledger that the example update leaves. -/
def exampleWritten : FileLedger :=
  exampleWriting.after exampleStart

/-- The ledger that is left when the error is found the day after. -/
def exampleChecked : FileLedger :=
  (exampleChecking exampleWritten 1).after exampleWritten

/-- The run answers, and starts on no other live todos than that of the example. -/
def Visit.isExampleRun (v : Visit) (l : FileLedger) : Bool :=
  ((formatter v.options v.read v.results).run.run (v.enter l)).1.isOk &&
    (match (v.enter l).currentLive with
      | .ok live => live.toList
      | .error _ => []).all Run.isExample

/-- The example runs answer, and start on no other live todos than that of the example. -/
theorem isExampleRun_all :
    (exampleWriting.isExampleRun exampleStart = true ∧
      (exampleChecking exampleWritten 1).isExampleRun exampleWritten = true) ∧
        (exampleChecking exampleChecked 7).isExampleRun exampleChecked = true := by
  simp only [← Bool.and_eq_true]
  decide +kernel

/-- A run whose outcome is no error answers. -/
theorem Visit.exists_answers (h : v.isExampleRun l = true) : ∃ out, v.Answers l out (v.after l) := by
  obtain ⟨out, l', hy⟩ := exists_yields_of_isOk (Bool.and_eq_true_iff.mp h).1
  have hafter : v.after l = l' := congrArg Prod.snd hy
  exact ⟨out, hafter ▸ hy⟩

/-- A run on the example result reproduces its error when no other todo is live. -/
theorem reproduces_example (hresults : v.results = [Run.exampleResult])
    (hengine : v.options.engine = "stylelint") (hdir : v.options.baseDir = "/repo")
    (h : v.isExampleRun l = true) : v.Reproduces FileLedger.exampleTodo.key l := by
  have herrors := Run.errorsOf_example hengine hdir
  refine ⟨?_, ?_, ?_, ?_⟩
  · intro r hr
    rw [hresults, List.mem_singleton] at hr
    rw [hr, hdir]
    decide +kernel
  · rw [hresults]
    exact List.nodup_singleton _
  · intro live hcurrent
    have hlive := (Bool.and_eq_true_iff.mp h).2
    rw [hcurrent] at hlive
    apply Run.distinguishable_of_isExample
    rw [List.all_append, hlive, hresults, List.flatMap_singleton, herrors]
    rfl
  · refine ⟨Run.exampleResult, hresults ▸ List.mem_singleton_self _, ?_⟩
    unfold errorKeys
    rw [herrors]
    exact List.contains_iff_mem.mpr List.mem_cons_self

/-- The example update writes the todo of its error. -/
theorem writes_example : ∃ out, exampleWriting.Writes FileLedger.exampleTodo.key ⟨some 5, some 10⟩
    exampleStart out exampleWritten := by
  obtain ⟨out, hy⟩ := Visit.exists_answers isExampleRun_all.1.1
  refine ⟨out, rfl, rfl, rfl, reproduces_example rfl rfl rfl isExampleRun_all.1.1, ?_, ?_, hy⟩
  · intro live hlive
    cases hlive
    rfl
  · have herrors := Run.errorsOf_example (o := exampleWriting.options) rfl rfl
    refine ⟨{ window := some ⟨some 5, some 10⟩ }, rfl, Run.exampleResult,
      List.mem_singleton_self _, ?_⟩
    rw [herrors]
    exact ⟨_, List.mem_singleton_self _, rfl, rfl⟩

/-- The todo of the example update is live after a run that finds its error the day after, and a run on the
seventh day that finds it leaves a warning. -/
theorem decay_schedule_of_example :
    ∃ out x, History FileLedger.exampleTodo.key exampleWritten [exampleChecking exampleWritten 1]
        exampleChecked ∧
      (exampleChecking exampleChecked 7).Answers exampleChecked out
        ((exampleChecking exampleChecked 7).after exampleChecked) ∧
      Holds exampleChecked x ∧ x.createdDate = some FileLedger.exampleDay ∧
      ∃ i place, FirstAt Run.exampleCheck [Run.exampleResult] FileLedger.exampleTodo.key i place ∧
        severityAt? out.results i place = some .warning := by
  obtain ⟨⟨-, hchecking⟩, hlast⟩ := isExampleRun_all
  obtain ⟨first, hwrites⟩ := writes_example
  obtain ⟨x, -, hcreated, hwarn, herror, -, hlater⟩ :=
    decay_schedule (.opened Run.noFiles "" FileLedger.exampleDay) hwrites
  obtain ⟨second, hsecond⟩ := Visit.exists_answers hchecking
  obtain ⟨third, hthird⟩ := Visit.exists_answers hlast
  have hhistory : History FileLedger.exampleTodo.key exampleWritten
      [exampleChecking exampleWritten 1] exampleChecked :=
    .cons rfl (fun _ => reproduces_example rfl rfl rfl hchecking) hsecond (.nil _)
  have hunexpired : ∀ w ∈ [exampleChecking exampleWritten 1], w.options.compactOnly = false →
      reached x.errorDate w.today = false := by
    intro w hw _
    rw [List.mem_singleton.mp hw, herror]
    decide +kernel
  obtain ⟨hholds, hschedule⟩ :=
    hlater (fun _ => by rw [herror]; decide +kernel) _ _ hhistory hunexpired
  obtain ⟨⟨i, place, hat⟩, hseverity⟩ := hschedule (exampleChecking exampleChecked 7) third _ rfl rfl
    (reproduces_example rfl rfl rfl hlast) hthird
  refine ⟨third, x, hhistory, hthird, hholds, hcreated, i, place, hat, ?_⟩
  rw [hseverity i place hat, hwarn, herror]
  decide +kernel

end LintDebt
