import LintDebt.Proofs.Ledger.Faithful
import LintDebt.Proofs.Run.Formatter

/-!
# What a run leaves alone

Whatever a ledger remembers and whatever results a run is given, the work on a file takes out todos of that
file and adds todos of that file.  But a result whose source is the base directory has an empty path, and
that stands for all files; and when two results are for one file, each of them counts the todos of the other
as abandoned.

* `LintDebt.Run.Left`: what the work on one file leaves of the live todos.
* `LintDebt.Run.left_reconcile`, `LintDebt.Run.live_files`: the work on one file, and on all.
* `LintDebt.Run.getElem?_files`: a result stays as it is until the work on its file.
* `LintDebt.Run.filter_live_formatter`: a run leaves the todos of all files that it is not for.
* `LintDebt.Run.formatter_clears_directory`: a result for the base directory clears all files.
* `LintDebt.Run.mem_live_formatter`: a run leaves the todos that all results for their files reproduce.
* `LintDebt.Run.formatter_clears_reproduced`: one result takes out what another reproduces.
-/

namespace LintDebt.Run

variable {o : RunOptions} {policy : DecayPolicy} {read : FileLedger → String → Option String}
  {results : List LintResult} {r : LintResult} {l l' l₁ : FileLedger} {live before after : Batch}
  {out : RunOutcome} {step : FileStep} {p q : Progress} {n i : Nat} {x t : Todo}

/-! ## One file -/

/-- What the work on a file may leave of the live todos: all that there were; or, when the file has a source,
those that it does not drop, with todos of the file behind them. -/
def Left (o : RunOptions) (l : FileLedger) (r : LintResult) (before after : Batch) : Prop :=
  after = before ∨ r.sourcePath.isEmpty = false ∧ ∃ added : List Todo,
    (∀ t ∈ added, concerns o r t = true) ∧
      after.toList = before.toList.filter (!drops o l r ·) ++ added

/-- Nothing is dropped when todos are neither written nor cleaned up. -/
theorem drops_of_idle (hupdating : o.updating = false) (hcleaning : o.cleaning = false) :
    drops o l r t = false := by
  rw [drops, hupdating, hcleaning]
  simp

/-- A result without a source brings about nothing. -/
theorem yields_reconcile_of_sourceless (hsource : r.sourcePath.isEmpty = true)
    (hy : Yields (reconcile o policy read r) l step l') : step = {} ∧ l' = l := by
  rw [reconcile_of_sourceless o policy read hsource] at hy
  exact yields_pure.mp hy

/-- The work on one file, when the live todos can be read. -/
theorem left_reconcile (h : l.currentLive = .ok live) (hy : Yields (reconcile o policy read r) l step l') :
    ∃ live', l'.currentLive = .ok live' ∧ Left o l r live live' := by
  cases hsource : r.sourcePath.isEmpty with
  | true =>
    obtain ⟨-, rfl⟩ := yields_reconcile_of_sourceless hsource hy
    exact ⟨live, h, Or.inl rfl⟩
  | false =>
    obtain ⟨live', hcurrent, ⟨-, hsame, -⟩ | ⟨-, hworked⟩⟩ := worked_reconcile hsource h hy
    · exact ⟨live', hcurrent, Or.inl hsame⟩
    · refine ⟨live', hcurrent, Or.inr ⟨hsource, _, ?_, hworked.left⟩⟩
      intro t ht
      exact (mem_newTodos (List.mem_filter.mp ht).1).1

/-- A file with a path asks for changes to the results for it alone. -/
theorem filePath_of_changes (h : l.currentLive = .ok live)
    (hpath : r.sourcePath.isEmpty = false → r.path o.baseDir ≠ "")
    (hy : Yields (reconcile o policy read r) l step l') :
    (∀ d ∈ step.changes.demotions, d.filePath = r.path o.baseDir) ∧
      ∀ v ∈ step.changes.violations, v.filePath = r.path o.baseDir := by
  have hnone (hchanges : step.changes = {}) :
      (∀ d ∈ step.changes.demotions, d.filePath = r.path o.baseDir) ∧
        ∀ v ∈ step.changes.violations, v.filePath = r.path o.baseDir := by
    rw [hchanges]
    exact ⟨nofun, nofun⟩
  cases hsource : r.sourcePath.isEmpty with
  | true =>
    obtain ⟨rfl, -⟩ := yields_reconcile_of_sourceless hsource hy
    exact hnone rfl
  | false =>
    obtain ⟨live', -, ⟨-, -, hchanges, -⟩ | ⟨-, hworked⟩⟩ := worked_reconcile hsource h hy
    · exact hnone hchanges
    · exact ⟨hworked.filePath_of_mem_demotions (hpath hsource),
        hworked.filePath_of_mem_violations (hpath hsource)⟩

/-! ## All files -/

/-- A property of the live todos that the work on each file keeps holds after the work on the first
files. -/
theorem live_files {P : Batch → Prop} (h : l.currentLive = .ok live) (hstart : P live)
    (hstep : ∀ i q l₁ r before after, i < n →
      Yields ((List.range i).foldlM (advance o policy read) { results }) l q l₁ →
        q.results[i]? = some r → P before → Left o l r before after → P after)
    (hy : Yields ((List.range n).foldlM (advance o policy read) { results }) l p l') :
    l'.today = l.today ∧ ∃ live', l'.currentLive = .ok live' ∧ P live' := by
  induction n generalizing p l' with
  | zero =>
    obtain ⟨-, rfl⟩ := yields_pure.mp hy
    exact ⟨rfl, live, h, hstart⟩
  | succ n ih =>
    obtain ⟨q, l₁, hfirst, hlast⟩ := yields_foldlM_range_succ.mp hy
    obtain ⟨htoday, live₁, hcurrent, hP⟩ :=
      ih (fun i q l₁ r b b' hi => hstep i q l₁ r b b' (Nat.lt_succ_of_lt hi)) hfirst
    rcases yields_advance.mp hlast with ⟨-, -, rfl⟩ | ⟨r, step, hr, hreconcile, -⟩
    · exact ⟨htoday, live₁, hcurrent, hP⟩
    · obtain ⟨live', hcurrent', hleft⟩ := left_reconcile hcurrent hreconcile
      have htoday' : l'.today = l₁.today :=
        (ends_reconcile (FileLedger.invariant_today l₁.today) rfl o policy read r).of_yields hreconcile
      rw [Left, drops_congr htoday] at hleft
      exact ⟨htoday'.trans htoday, live', hcurrent',
        hstep n q l₁ r live₁ live' (Nat.lt_succ_self n) hfirst hr hP hleft⟩

/-- The work on files leaves every result its source. -/
theorem sources_files
    (hy : Yields ((List.range n).foldlM (advance o policy read) { results }) l p l') :
    results.map LintResult.source <+: p.results.map LintResult.source := by
  induction n generalizing p l' with
  | zero =>
    obtain ⟨rfl, -⟩ := yields_pure.mp hy
    exact List.prefix_refl _
  | succ n ih =>
    obtain ⟨q, l₁, hfirst, hlast⟩ := yields_foldlM_range_succ.mp hy
    rcases yields_advance.mp hlast with ⟨-, rfl, -⟩ | ⟨r, step, -, -, rfl⟩
    · exact ih hfirst
    · exact (ih hfirst).trans (Changes.sources_apply step.changes o.baseDir q.results)

/-- The result whose turn it is has the source of the result that was given. -/
theorem exists_source_eq (hi : i < results.length)
    (hy : Yields ((List.range i).foldlM (advance o policy read) { results }) l q l₁)
    (hr : q.results[i]? = some r) : ∃ given ∈ results, r.source = given.source := by
  obtain ⟨more, hmore⟩ := sources_files hy
  have hgiven : (q.results.map LintResult.source)[i]? = some results[i].source := by
    rw [← hmore, List.getElem?_append_left (by rwa [List.length_map]), List.getElem?_map,
      List.getElem?_eq_getElem hi]
    rfl
  rw [List.getElem?_map, hr] at hgiven
  exact ⟨results[i], List.getElem_mem hi, Option.some.inj hgiven⟩

/-- When no source has an empty path, a result stays as it is until the work on its file. -/
theorem getElem?_files (h : l.currentLive = .ok live)
    (hpaths : ∀ r ∈ results, r.sourcePath.isEmpty = false → r.path o.baseDir ≠ "")
    (hy : Yields ((List.range n).foldlM (advance o policy read) { results }) l p l') :
    ∀ i, n ≤ i → i < results.length → p.results[i]? = results[i]? := by
  induction n generalizing p l' with
  | zero =>
    obtain ⟨rfl, -⟩ := yields_pure.mp hy
    exact fun _ _ _ => rfl
  | succ n ih =>
    obtain ⟨q, l₁, hfirst, hlast⟩ := yields_foldlM_range_succ.mp hy
    intro i hni hi
    have hn : n < results.length := Nat.lt_trans hni hi
    have hbefore := ih hfirst i (Nat.le_of_succ_le hni) hi
    have hr : q.results[n]? = some results[n] :=
      (ih hfirst n (Nat.le_refl n) hn).trans (List.getElem?_eq_getElem hn)
    obtain ⟨step, hreconcile, rfl⟩ := (yields_advance_of_getElem? hr).mp hlast
    obtain ⟨-, live₁, hcurrent, -⟩ :=
      live_files (P := fun _ => True) h trivial (fun _ _ _ _ _ _ _ _ _ _ _ => trivial) hfirst
    obtain ⟨hdemotions, hviolations⟩ :=
      filePath_of_changes hcurrent (hpaths _ (List.getElem_mem hn)) hreconcile
    rw [← hbefore]
    refine Changes.getElem?_apply (i := n) ?_ hni hdemotions hviolations
    rw [List.getElem?_map, hr]
    rfl

/-! ## Files that a run is not for -/

/-- Whether a run is for the file of a todo. -/
def reaches (o : RunOptions) (results : List LintResult) (t : Todo) : Bool :=
  results.any fun r => !r.sourcePath.isEmpty && covers o r t

/-- The paths of the results that have a source. -/
def filesOf (o : RunOptions) (results : List LintResult) : List String :=
  (results.filter fun r => !r.sourcePath.isEmpty).map (LintResult.path o.baseDir)

/-- A run is for the file of a todo when a result is that has the source of one of its results. -/
theorem reaches_of_covers {given : LintResult} (hgiven : given ∈ results)
    (hsame : r.source = given.source) (hsource : r.sourcePath.isEmpty = false)
    (h : covers o r t = true) : reaches o results t = true := by
  have hpath : given.sourcePath = r.sourcePath := by
    rw [LintResult.sourcePath, LintResult.sourcePath, hsame]
  refine List.any_eq_true.mpr ⟨given, hgiven, ?_⟩
  rw [hpath, hsource, covers, LintResult.path, hpath]
  exact h

/-- When no source has an empty path, a run is for the files that its results name. -/
theorem reaches_eq (h : "" ∉ filesOf o results) (t : Todo) :
    reaches o results t = (filesOf o results).contains t.filePath := by
  rw [Bool.eq_iff_iff, List.contains_iff_mem, reaches, List.any_eq_true]
  constructor
  · rintro ⟨r, hr, htest⟩
    obtain ⟨hsource, hcovers⟩ := Bool.and_eq_true_iff.mp htest
    have hmem : r.path o.baseDir ∈ filesOf o results :=
      List.mem_map_of_mem (List.mem_filter.mpr ⟨hr, hsource⟩)
    rw [covers_of_path fun hpath => h (hpath ▸ hmem)] at hcovers
    rwa [beq_iff_eq.mp hcovers]
  · intro hmem
    obtain ⟨r, hr, hpath⟩ := List.mem_map.mp hmem
    obtain ⟨hgiven, hsource⟩ := List.mem_filter.mp hr
    refine ⟨r, hgiven, Bool.and_eq_true_iff.mpr ⟨hsource, ?_⟩⟩
    rw [covers, hpath, beq_self_eq_true, Bool.or_true]

/-- The work on a file of a run leaves the todos of all files that the run is not for. -/
theorem Left.filter_not_reaches (h : Left o l r before after) {given : LintResult}
    (hgiven : given ∈ results) (hsame : r.source = given.source) :
    after.toList.filter (!reaches o results ·) = before.toList.filter (!reaches o results ·) := by
  rcases h with rfl | ⟨hsource, added, hadded, hlist⟩
  · rfl
  · have hnone : added.filter (!reaches o results ·) = [] := by
      apply List.filter_eq_nil_iff.mpr
      intro t ht
      rw [reaches_of_covers hgiven hsame hsource (covers_of_concerns (hadded t ht))]
      exact Bool.false_ne_true
    rw [hlist, List.filter_append, hnone, List.append_nil, List.filter_filter]
    apply List.filter_congr
    intro t _
    cases hdrops : drops o l r t with
    | false => exact Bool.and_true _
    | true => rw [reaches_of_covers hgiven hsame hsource (covers_of_drops hdrops)]; rfl

/-- A run leaves the todos of all files that it is not for as they are, and adds none for them, in any ledger
whose live todos can be read.  When no source has an empty path, these are all files but those that its
results name. -/
theorem filter_live_formatter (h : l.currentLive = .ok live)
    (hfaithful : o.compactOnly = true → l.Faithful)
    (hy : Yields (formatter o read results) l out l') :
    ∃ live', l'.currentLive = .ok live' ∧
      live'.toList.filter (!reaches o results ·) = live.toList.filter (!reaches o results ·) ∧
      ("" ∉ filesOf o results →
        live'.toList.filter (fun t => !(filesOf o results).contains t.filePath) =
          live.toList.filter fun t => !(filesOf o results).contains t.filePath) := by
  obtain ⟨live', hcurrent, hfilter⟩ : ∃ live', l'.currentLive = .ok live' ∧
      live'.toList.filter (!reaches o results ·) = live.toList.filter (!reaches o results ·) := by
    cases hcompact : o.compactOnly with
    | true =>
      obtain ⟨_, n, -, hshort, -⟩ := (yields_formatter_compact hcompact).mp hy
      exact ⟨live, (hfaithful hcompact).currentLive_compact h hshort, rfl⟩
    | false =>
      obtain ⟨policy, p, -, hfiles, -⟩ := yields_formatter hcompact hy
      refine (live_files (P := fun b => b.toList.filter (!reaches o results ·) =
        live.toList.filter (!reaches o results ·)) h rfl ?_ hfiles).2
      intro i q l₁ r before after hi hfirst hr hbefore hleft
      obtain ⟨given, hgiven, hsame⟩ := exists_source_eq hi hfirst hr
      exact (hleft.filter_not_reaches hgiven hsame).trans hbefore
  refine ⟨live', hcurrent, hfilter, ?_⟩
  intro hnamed
  simpa only [reaches_eq hnamed] using hfilter

/-- A result for the other file of a small example. -/
def exampleOther : LintResult where
  source := some "/repo/b.css"

/-- A run on another file leaves the example todo. -/
theorem filter_live_formatter_of_example :
    exampleCheck.compactOnly = false ∧ "" ∉ filesOf exampleCheck [exampleOther] ∧
      ∃ out l' live', Yields (formatter exampleCheck exampleRead [exampleOther])
          (FileLedger.openIn FileLedger.exampleFiles "" FileLedger.exampleDay) out l' ∧
        l'.currentLive = .ok live' ∧
          live'.toList.filter (fun t => !(filesOf exampleCheck [exampleOther]).contains t.filePath) =
            [FileLedger.exampleTodo.stored] := by
  have hnamed : filesOf exampleCheck [exampleOther] = ["b.css"] := by decide +kernel
  obtain ⟨out, l', hy⟩ : ∃ out l', Yields (formatter exampleCheck exampleRead [exampleOther])
      (FileLedger.openIn FileLedger.exampleFiles "" FileLedger.exampleDay) out l' :=
    exists_yields_of_remembering (fun _ _ => rfl) rfl (reads_example.shows nofun).current
      (by decide +kernel)
  obtain ⟨live', hcurrent, -, hfilter⟩ :=
    filter_live_formatter (reads_example.shows nofun).current nofun hy
  have hne : "" ∉ filesOf exampleCheck [exampleOther] := by
    rw [hnamed]
    decide
  refine ⟨rfl, hne, out, l', live', hy, hcurrent, (hfilter hne).trans ?_⟩
  rw [toList_exampleLive, hnamed]
  rfl

/-- What a run leaves is seen when it takes place once the live todos have been read: it answers, and then
so many todos are live. -/
theorem exists_yields_size {size : Nat} (hread : ∀ l live, read (l.remembering live) = read l)
    (hcompact : o.compactOnly = false) (hcurrent : l.currentLive = .ok live)
    (h : (match (formatter o read results).run.run (l.remembering live) with
      | (.ok _, l') => l'.currentLive.toOption.map Batch.size
      | (.error _, _) => none) = some size) :
    ∃ out l' live', Yields (formatter o read results) l out l' ∧ l'.currentLive = .ok live' ∧
      live'.toList.length = size := by
  rcases hrun : (formatter o read results).run.run (l.remembering live) with ⟨e | out, m'⟩
  · rw [hrun] at h
    cases h
  · rw [hrun] at h
    replace h : m'.currentLive.toOption.map Batch.size = some size := h
    obtain ⟨l', hy, hafter⟩ := exists_yields_of_hasRead hread hcompact (.inr ⟨live, hcurrent, rfl⟩) hrun
    rw [hafter.currentLive_eq] at h
    cases hcurrent' : l'.currentLive with
    | error e =>
      rw [hcurrent'] at h
      cases h
    | ok live' =>
      rw [hcurrent'] at h
      exact ⟨out, l', live', hy, hcurrent', (Batch.size_eq live').symm.trans (Option.some.inj h)⟩

/-- A result for the base directory itself. -/
def exampleDirectory : LintResult where
  source := some "/repo"

/-- A result for the base directory has an empty path, which stands for all files: a run on it takes out the
todo of a file that it does not name. -/
theorem formatter_clears_directory :
    (FileLedger.openIn FileLedger.exampleFiles "" FileLedger.exampleDay).currentLive =
        .ok exampleLive ∧
      FileLedger.exampleTodo.stored ∈ exampleLive.toList ∧
      exampleDirectory.sourcePath.isEmpty = false ∧
      FileLedger.exampleTodo.filePath ∉ filesOf exampleCheck [exampleDirectory] ∧
      ∃ out l' live', Yields (formatter exampleCheck exampleRead [exampleDirectory])
          (FileLedger.openIn FileLedger.exampleFiles "" FileLedger.exampleDay) out l' ∧
        l'.currentLive = .ok live' ∧ FileLedger.exampleTodo.stored ∉ live'.toList := by
  refine ⟨(reads_example.shows nofun).current, ?_, by decide, ?_, ?_⟩
  · rw [toList_exampleLive]
    exact List.mem_singleton_self _
  · rw [show filesOf exampleCheck [exampleDirectory] = [""] by decide +kernel]
    decide
  · obtain ⟨out, l', live', hy, hcurrent, hsize⟩ :=
      @exists_yields_size exampleCheck exampleRead [exampleDirectory] _ _ 0 (fun _ _ => rfl) rfl
        (reads_example.shows nofun).current (by decide +kernel)
    refine ⟨out, l', live', hy, hcurrent, ?_⟩
    rw [List.eq_nil_of_length_eq_zero hsize]
    exact List.not_mem_nil

/-! ## Reproduced todos -/

/-- A todo that has not expired stays live through a run, in any ledger whose live todos can be read, when
every result for its file reproduces it; unless a source has an empty path, which stands for all files. -/
theorem mem_live_formatter (h : l.currentLive = .ok live)
    (hfaithful : o.compactOnly = true → l.Faithful)
    (hy : Yields (formatter o read results) l out l') (hx : x ∈ live.toList)
    (hexp : l.isExpired x = false)
    (hreproduced : o.updating = true ∨ o.cleaning = true → ∀ r ∈ results,
      r.sourcePath.isEmpty = false → r.path o.baseDir ≠ "" ∧
        (x.engine = o.engine → r.path o.baseDir = x.filePath →
          (errorKeys o r).contains x.key = true)) :
    ∃ live', l'.currentLive = .ok live' ∧ x ∈ live'.toList := by
  cases hcompact : o.compactOnly with
  | true =>
    obtain ⟨_, n, -, hshort, -⟩ := (yields_formatter_compact hcompact).mp hy
    exact ⟨live, (hfaithful hcompact).currentLive_compact h hshort, hx⟩
  | false =>
    obtain ⟨policy, p, -, hfiles, -⟩ := yields_formatter hcompact hy
    refine (live_files (P := fun b => x ∈ b.toList) h hx ?_ hfiles).2
    rintro i q l₁ r before after hi hfirst hr hmem (rfl | ⟨hsource, added, -, hlist⟩)
    · exact hmem
    · rw [hlist]
      refine List.mem_append_left _ (List.mem_filter.mpr ⟨hmem, ?_⟩)
      rw [Bool.not_eq_true']
      by_cases hactive : o.updating = true ∨ o.cleaning = true
      · -- the result is still the one that was given, so it reproduces the todo if it is for its file
        have hgiven := getElem?_files h (fun r hr hs => (hreproduced hactive r hr hs).1) hfirst i
          (Nat.le_refl i) hi
        have hmem' : r ∈ results := List.mem_of_getElem? (hgiven.symm.trans hr)
        obtain ⟨hpath, hkey⟩ := hreproduced hactive r hmem' hsource
        rw [drops, covers_of_path hpath, hexp, Bool.and_false]
        by_cases hcovers : x.filePath = r.path o.baseDir
        · by_cases hengine : x.engine = o.engine
          · rw [hkey hengine hcovers.symm, if_pos rfl, Bool.and_false]
          · rw [beq_eq_false_iff_ne.mpr hengine, Bool.false_and, ite_self, Bool.and_false]
        · rw [beq_eq_false_iff_ne.mpr hcovers, Bool.false_and]
      · rw [not_or, Bool.not_eq_true, Bool.not_eq_true] at hactive
        exact drops_of_idle hactive.1 hactive.2

/-- The example result reproduces the example todo. -/
theorem contains_errorKeys_example :
    (errorKeys exampleCheck exampleResult).contains FileLedger.exampleTodo.stored.key = true := by
  have hsame : FileLedger.exampleTodo.stored.SameIdentity (Candidates.identity "stylelint" "a.css"
      { line := 1, column := 1, endColumn := some 4, rule := some "color", severity := .error }) :=
    ⟨rfl, rfl, rfl, rfl⟩
  rw [List.contains_iff_mem, hsame.key_eq, errorKeys, errorsOf_example rfl rfl]
  exact List.mem_singleton_self _

/-- A run that reproduces the example todo leaves it. -/
theorem mem_live_formatter_of_example :
    ∃ out l' live', Yields (formatter exampleCheck exampleRead [exampleResult])
        (FileLedger.openIn FileLedger.exampleFiles "" FileLedger.exampleDay) out l' ∧
      l'.currentLive = .ok live' ∧ FileLedger.exampleTodo.stored ∈ live'.toList := by
  obtain ⟨out, l', hy⟩ := exists_yields_example
  obtain ⟨live', hcurrent, hmem⟩ := mem_live_formatter (x := FileLedger.exampleTodo.stored)
    (reads_example.shows nofun).current nofun hy
    (by rw [toList_exampleLive]; exact List.mem_singleton_self _) rfl
    (fun _ r hr _ => by
      rw [List.mem_singleton.mp hr]
      exact ⟨filesApart_example.paths _ List.mem_cons_self, fun _ _ => contains_errorKeys_example⟩)
  exact ⟨out, l', live', hy, hcurrent, hmem⟩

/-- A result for the example file in which the error is gone. -/
def exampleFixed : LintResult where
  source := some "/repo/a.css"

/-- When a file has two results, the todo that the first reproduces is taken out by the second, which does
not, although it has not expired. -/
theorem formatter_clears_reproduced :
    (FileLedger.openIn FileLedger.exampleFiles "" FileLedger.exampleDay).currentLive =
        .ok exampleLive ∧
      FileLedger.exampleTodo.stored ∈ exampleLive.toList ∧
      FileLedger.exampleTodo.stored.engine = exampleCheck.engine ∧
      (FileLedger.openIn FileLedger.exampleFiles "" FileLedger.exampleDay).isExpired
        FileLedger.exampleTodo.stored = false ∧
      exampleResult.sourcePath.isEmpty = false ∧
      (errorKeys exampleCheck exampleResult).contains FileLedger.exampleTodo.stored.key = true ∧
      ∃ out l' live', Yields (formatter exampleCheck exampleRead [exampleResult, exampleFixed])
          (FileLedger.openIn FileLedger.exampleFiles "" FileLedger.exampleDay) out l' ∧
        l'.currentLive = .ok live' ∧ FileLedger.exampleTodo.stored ∉ live'.toList := by
  refine ⟨(reads_example.shows nofun).current, ?_, rfl, rfl, by decide, contains_errorKeys_example, ?_⟩
  · rw [toList_exampleLive]
    exact List.mem_singleton_self _
  · obtain ⟨out, l', live', hy, hcurrent, hsize⟩ :=
      @exists_yields_size exampleCheck exampleRead [exampleResult, exampleFixed] _ _ 0 (fun _ _ => rfl) rfl
        (reads_example.shows nofun).current (by decide +kernel)
    refine ⟨out, l', live', hy, hcurrent, ?_⟩
    rw [List.eq_nil_of_length_eq_zero hsize]
    exact List.not_mem_nil

end LintDebt.Run
