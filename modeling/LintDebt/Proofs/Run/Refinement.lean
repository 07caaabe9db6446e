import LintDebt.Proofs.Alike
import LintDebt.Proofs.Ledger.Memory
import LintDebt.Proofs.Run.Failure

/-!
# The ledger in memory stands in for the ledger in a file

Without decay, a ledger in memory answers to runs what a ledger in a file answers, and keeps the same todos in
the same order.

* `LintDebt.Mirrors`: a ledger in memory keeps the todos of a ledger in a file.
* `LintDebt.Mirrors.alike_writeIf`, `alike_settleIf`: the steps of the work on one file go alike on both.
* `LintDebt.Mirrors.alike_reconcile`, `alike_formatter`: so does the work on one file, and a whole run.
* `LintDebt.Turn`: a run as it takes place on both.
* `LintDebt.FileLedger.trail`, `LintDebt.MemoryLedger.trail`: what runs answer and leave, one after the other.
* `LintDebt.FileLedger.Sound`: a ledger whose runs cannot fail but for their options.
* `LintDebt.trail_openIn`: from an empty directory on, the trails are the same.
-/

namespace LintDebt

open Run (candidatesOf scopeOf errorKeys newTodos written)

/-! ## Mirrors -/

/-- Nothing is set beforehand of what a ledger in memory answers. -/
structure MemoryLedger.Plain (m : MemoryLedger) : Prop where
  problem : m.problem = none
  policy : m.basePolicy = {}
  severities : m.severityByRule = []
  rules : m.expiredRules = []

/-- A ledger in memory keeps the live todos of a ledger in a file, as far as their identities and snippets go,
and has stored something if the other has; and no todo has a date. -/
structure Mirrors (l : FileLedger) (m : MemoryLedger) (live : Batch) : Prop where
  plain : m.Plain
  shows : l.Shows live
  same : live.toList.map Todo.bare = m.todos.map Todo.bare
  undated : ∀ t ∈ live.toList, t.warnDate = none ∧ t.errorDate = none
  stored : l.files.isFile l.storagePath = true → m.storage = true

/-- A ledger in memory mirrors a ledger in a file. -/
def Mirrored (l : FileLedger) (m : MemoryLedger) : Prop :=
  ∃ live, Mirrors l m live

/-- The dates of a todo do not belong to what is left of it. -/
@[simp] theorem FileLedger.bare_date (l : FileLedger) (policy : Option DecayPolicy) (t : Todo) :
    (l.date policy t).bare = t.bare := by
  unfold date
  split <;> rfl

namespace Mirrors

variable {l l' : FileLedger} {m m' : MemoryLedger} {live : Batch} {o : RunOptions} {r : LintResult}
  {contents : Option String} {candidates : Batch} {scope : Scope}

/-- The todos have the same keys. -/
theorem keys_eq (h : Mirrors l m live) : live.toList.map Todo.key = m.todos.map Todo.key :=
  Todo.map_of_bare h.same fun _ => rfl

/-- The ledger that remembers its live todos is mirrored as before. -/
theorem remembering (h : Mirrors l m live) : Mirrors (l.remembering live) m live where
  plain := h.plain
  shows := ⟨rfl, h.shows.unlogged⟩
  same := h.same
  undated := h.undated
  stored := h.stored

/-! ## Writing -/

/-- The candidates with new keys are the same. -/
theorem fresh_eq (h : Mirrors l m live) (candidates : Batch) :
    FileLedger.fresh candidates live = m.freshIn candidates := by
  apply List.filter_congr
  intro c _
  rw [Batch.contains, Batch.keys_eq, h.keys_eq]

/-- As many todos go on the one as on the other. -/
theorem length_stale (h : Mirrors l m live) (candidates : Batch) (scope : Scope) :
    (FileLedger.stale candidates scope live).length =
      m.todos.length - (m.keptBy candidates scope).length := by
  let gone (t : Todo) : Bool := scope.covers t && scope.owns t && !candidates.contains t.key
  have hsame : ((live.toList.filter gone).map Todo.bare).length = ((m.todos.filter gone).map Todo.bare).length :=
    congrArg List.length (Todo.filter_bare h.same fun _ => rfl)
  have hparts : m.todos.length = (m.todos.filter gone).length + (m.todos.filter (!gone ·)).length :=
    List.length_eq_length_filter_add gone
  rw [List.length_map, List.length_map] at hsame
  show (live.toList.filter gone).length = m.todos.length - (m.todos.filter (!gone ·)).length
  omega

/-- Nothing is set beforehand by a ledger that goes on. -/
theorem plain_of (h : Mirrors l m live) (hproblem : m'.problem = m.problem)
    (hpolicy : m'.basePolicy = m.basePolicy) (hseverities : m'.severityByRule = m.severityByRule)
    (hrules : m'.expiredRules = m.expiredRules) : m'.Plain :=
  ⟨hproblem.trans h.plain.problem, hpolicy.trans h.plain.policy, hseverities.trans h.plain.severities,
    hrules.trans h.plain.rules⟩

/-- The candidates of a file are written on both ledgers, and get no dates when there are no windows. -/
theorem write (h : Mirrors l m live) (hupdating : o.updating = true) {summary : WriteSummary}
    (hy : Yields (FileLedger.write (candidatesOf o {} contents r) (scopeOf o {} r)) l summary l')
    (hy' : Yields (MemoryLedger.write (candidatesOf o {} contents r) (scopeOf o {} r)) m summary m') :
    Mirrored l' m' := by
  obtain ⟨hcache, hunlogged⟩ := FileLedger.cached_write h.shows.current hy
  obtain ⟨-, rfl⟩ := MemoryLedger.yields_write.mp hy'
  refine ⟨_, h.plain_of rfl rfl rfl rfl, ⟨by rw [FileLedger.currentLive, hcache], fun hnolog => ?_⟩, ?_, ?_,
    fun _ => rfl⟩
  · obtain ⟨hnone, rfl⟩ := hunlogged hnolog
    rw [hnone]
    exact h.shows.unlogged hnolog
  · rw [FileLedger.toList_applyAll_writeEntries, List.map_append, List.map_append]
    congr 1
    · exact Todo.filter_bare h.same fun _ => rfl
    · rw [← h.fresh_eq, List.map_map, List.map_map]
      exact List.map_congr_left fun c _ => FileLedger.bare_date l _ c
  · rw [Run.toList_applyAll_candidatesOf hupdating, written, if_pos hupdating]
    intro t ht
    rcases List.mem_append.mp ht with hold | hnew
    · exact h.undated t (List.mem_filter.mp hold).1
    · exact Run.undated_of_mem_newTodos hnew

/-- Writing the candidates of a file, or not, goes alike when there are no windows. -/
theorem alike_writeIf (h : Mirrors l m live) (hwritable : l.Writable) :
    Alike Mirrored (Run.writeIf o (candidatesOf o {} contents r) (scopeOf o {} r))
      (Run.writeIf o (candidatesOf o {} contents r) (scopeOf o {} r)) l m := by
  unfold Run.writeIf
  split
  · next hupdating =>
    apply Run.alike_onLedger
    have hfails := FileLedger.fails_write (l := l) (candidatesOf o {} contents r) (scopeOf o {} r)
    obtain ⟨summary, l', hy⟩ := hfails.exists_yields (by
      rintro c s (⟨hcurrent, -⟩ | ⟨-, hnot⟩)
      · cases hcurrent.symm.trans h.shows.current
      · exact hnot hwritable)
    obtain ⟨m', hy'⟩ : ∃ m', Yields (MemoryLedger.write (candidatesOf o {} contents r) (scopeOf o {} r)) m
        summary m' := by
      obtain ⟨found, hfound, -, rfl⟩ := FileLedger.yields_write.mp hy
      obtain rfl := Except.ok.inj (hfound.symm.trans h.shows.current)
      refine ⟨_, MemoryLedger.yields_write.mpr ⟨?_, rfl⟩⟩
      rw [h.fresh_eq, h.length_stale]
    exact alike_of_yields hy hy' (h.write hupdating hy hy')
  · exact alike_pure ⟨live, h⟩ _

/-! ## Settling -/

/-- The demotion that a reproduced todo without dates asks for. -/
def todoDemotion (t : Todo) : Option Demotion :=
  t.origin.map (⟨t.filePath, ·, .todo⟩)

/-- Two ledgers have sorted their todos alike: none has expired, the same are to be removed, and the others ask
for the same demotions. -/
structure SortedAlike (b b' : Batches) : Prop where
  stable : b.stable.toList.filterMap todoDemotion = b'.stable.toList.filterMap todoDemotion
  undated : ∀ t ∈ b.stable.toList, t.warnDate = none ∧ t.errorDate = none
  remove : b.remove.toList.map Todo.bare = b'.remove.toList.map Todo.bare
  expired : b.expired.toList = []
  expired' : b'.expired.toList = []

/-- The todos are sorted alike. -/
theorem exists_sorted (h : Mirrors l m live) (candidates : Batch) (scope : Scope) :
    ∃ b b', Yields (FileLedger.sortOut candidates scope) l b (l.remembering live) ∧
      Yields (MemoryLedger.sortOut candidates scope) m b' m ∧ SortedAlike b b' := by
  obtain ⟨b, hy⟩ := FileLedger.exists_yields_sortOut h.shows.current candidates scope
  obtain ⟨-, hstable, hexpired, hremove⟩ := FileLedger.toList_sortOut h.shows.current hy
  have hnodup : (m.todos.map Todo.key).Nodup := h.keys_eq ▸ live.nodup_keys_toList
  obtain ⟨b', hy', hstable', hexpired', hremove'⟩ :=
    MemoryLedger.yields_sortOut h.plain.rules hnodup candidates scope
  have hcovered : (live.toList.filter scope.covers).map Todo.bare = (m.todos.filter scope.covers).map Todo.bare :=
    Todo.filter_bare h.same fun _ => rfl
  have hundated : ∀ t ∈ FileLedger.reproduced candidates scope live.toList,
      t.warnDate = none ∧ t.errorDate = none := by
    intro u hu
    obtain ⟨t, ht, -, hmatch⟩ := FileLedger.mem_reproduced.mp hu
    obtain ⟨c, -, rfl⟩ := Option.map_eq_some_iff.mp hmatch
    exact h.undated t ht
  have hunexpired : ∀ t ∈ FileLedger.reproduced candidates scope live.toList, l.isExpired t = false :=
    fun t ht => (Run.severity_of_undated (hundated t ht)).1
  refine ⟨b, b', hy, hy', ⟨?_, ?_, ?_, ?_, hexpired'⟩⟩
  · rw [hstable, List.filter_eq_self.mpr fun t ht => by rw [hunexpired t ht]; rfl, hstable',
      FileLedger.reproduced, List.filterMap_filterMap, List.filterMap_filterMap]
    apply Todo.filterMap_of_bare hcovered
    · intro t
      unfold FileLedger.matched
      rw [Todo.key_bare]
      cases candidates.get? t.key <;> rfl
    · intro t
      unfold FileLedger.matched MemoryLedger.matched
      cases candidates.get? t.key <;> rfl
  · intro t ht
    rw [hstable] at ht
    exact hundated t (List.mem_filter.mp ht).1
  · rw [hremove, hremove']
    exact Todo.filter_bare hcovered fun _ => rfl
  · rw [hexpired, List.filter_eq_nil_iff]
    intro t ht
    rw [hunexpired t ht]
    exact Bool.false_ne_true

/-- The same keys are cleared on both ledgers. -/
theorem alike_clear (h : Mirrors l m live) (hcache : l.cache = some live)
    (hlogged : l.files.isFile l.storagePath = true) {stale stale' : Batch}
    (hkeys : stale.toList.map Todo.key = stale'.toList.map Todo.key) :
    Alike Mirrored (Run.clear stale) (Run.clear stale') l m := by
  have hempty : stale.isEmpty = stale'.isEmpty := by
    have hnone (b : Batch) : b.isEmpty = (b.toList.map Todo.key).isEmpty := by
      rw [Batch.isEmpty_eq, List.isEmpty_map]
    rw [hnone, hkeys, ← hnone]
  unfold Run.clear
  rw [hempty]
  split
  · exact alike_pure ⟨live, h⟩ _
  · apply Run.alike_onLedger
    -- the log is there, so that it can be written
    obtain ⟨u, l', hy⟩ := (FileLedger.fails_exchange (l := l) .empty stale).exists_yields
      fun _ _ hfails => hfails.2 (FileLedger.writable_of_isFile hlogged)
    have hy' : Yields (MemoryLedger.exchange .empty stale') m u _ := MemoryLedger.yields_exchange.mpr rfl
    obtain ⟨live', hcache', hlist⟩ := FileLedger.cached_exchange hcache hy
    have hstays := (FileLedger.invariant_logged.ends_exchange hlogged .empty stale).of_yields hy
    refine alike_of_yields hy hy' ⟨live', h.plain_of rfl rfl rfl rfl, ⟨?_, fun hnolog => ?_⟩, ?_, ?_,
      fun _ => rfl⟩
    · rw [FileLedger.currentLive, hcache']
    · exact absurd (hstays.symm.trans hnolog) (by decide)
    · rw [hlist]
      have hcontains (t : Todo) : stale'.contains t.key = stale.contains t.key := by
        rw [Batch.contains, Batch.contains, Batch.keys_eq, Batch.keys_eq, hkeys]
      simp only [hcontains]
      exact Todo.filter_bare h.same fun _ => rfl
    · intro t ht
      rw [hlist] at ht
      exact h.undated t (List.mem_filter.mp ht).1

namespace SortedAlike

variable {b b' : Batches}

/-- What is to be taken out is what is to be removed. -/
theorem union_eq (h : SortedAlike b b') :
    b.remove.union b.expired = b.remove ∧ b'.remove.union b'.expired = b'.remove := by
  constructor
  · apply Batch.ext_toList
    rw [Batch.toList_union, h.expired, List.filter_nil, List.append_nil]
  · apply Batch.ext_toList
    rw [Batch.toList_union, h.expired', List.filter_nil, List.append_nil]

/-- The todos that are to be removed are reported in the same way. -/
theorem foldl_violate_eq (h : SortedAlike b b') :
    b.remove.toList.foldl Changes.violate {} = b'.remove.toList.foldl Changes.violate {} := by
  rw [Run.foldl_violate, Run.foldl_violate,
    Todo.map_of_bare (f := fun t => (⟨t.filePath, t.violation⟩ : Violation)) h.remove fun _ => rfl]

/-- The same severities are asked for. -/
theorem demotions_eq (h : SortedAlike b b') (hplain : m.Plain) (c : Changes) :
    Run.demotions l b.stable.toList c = .ok { c with
        demotions := c.demotions ++ b.stable.toList.filterMap todoDemotion } ∧
      Run.demotions m b'.stable.toList c = .ok { c with
        demotions := c.demotions ++ b.stable.toList.filterMap todoDemotion } := by
  constructor
  · refine Run.demotions_of_severities (fun t ht => ⟨?_, by decide⟩) c
    exact congrArg Severity.code (Run.severity_of_undated (h.undated t ht)).2
  · rw [h.stable]
    refine Run.demotions_of_severities (fun t _ => ⟨?_, by decide⟩) c
    show ((m.severityByRule.find? _).map _).getD _ = _
    rw [hplain.severities]
    rfl

end SortedAlike

/-- What follows the writing goes alike when there is a log. -/
theorem alike_settle (h : Mirrors l m live) (hlogged : l.files.isFile l.storagePath = true) :
    Alike Mirrored (Run.settle o candidates scope) (Run.settle o candidates scope) l m := by
  obtain ⟨b, b', hy, hy', hsorted⟩ := h.exists_sorted candidates scope
  rw [Run.settle_eq, Run.settle_eq]
  refine alike_bind_of_yields (Run.yields_onLedger.mpr hy) (Run.yields_onLedger.mpr hy') ?_
  obtain ⟨hunion, hunion'⟩ := hsorted.union_eq
  have hkeys : b.remove.toList.map Todo.key = b'.remove.toList.map Todo.key :=
    Todo.map_of_bare hsorted.remove fun _ => rfl
  have hsize : b.remove.size = b'.remove.size := by
    rw [Batch.size_eq, Batch.size_eq, ← List.length_map Todo.key, hkeys, List.length_map]
  rw [hunion, hunion', hsize, hsorted.foldl_violate_eq]
  apply alike_bind
  · split
    · exact h.remembering.alike_clear rfl hlogged hkeys
    · exact alike_pure ⟨live, h.remembering⟩ _
  intro _ l₁ m₁ _ _ hmirrored
  obtain ⟨live₁, hmirrors⟩ := hmirrored
  apply alike_get_bind
  obtain ⟨hdemotions, hdemotions'⟩ := hsorted.demotions_eq (l := l₁) hmirrors.plain
    (if o.cleaning then {} else b'.remove.toList.foldl Changes.violate {})
  rw [hdemotions, hdemotions']
  exact alike_bind (alike_pure ⟨live₁, hmirrors⟩ _) fun _ _ _ _ _ hafter => alike_pure hafter _

/-- Without todos, a ledger in memory has nothing to settle. -/
theorem yields_settle_of_nil (hnone : m.todos = []) : Yields (Run.settle o candidates scope) m {} m := by
  have hsort : Yields (MemoryLedger.sortOut candidates scope) m {} m := by
    apply yields_get_bind.mpr
    rw [hnone]
    exact yields_pure.mpr ⟨rfl, rfl⟩
  refine Run.yields_settle.mpr ⟨{}, m, (), {}, hsort, ?_, ?_, ?_⟩
  · cases o.cleaning <;> exact yields_pure.mpr ⟨rfl, rfl⟩
  · cases o.cleaning <;> rfl
  · cases o.cleaning <;> rfl

/-- What follows the writing goes alike.  After a write that has changed nothing, the ledger in memory has stored
something and the ledger in a file has not, but then there is nothing to settle. -/
theorem alike_settleIf (h : Mirrors l m live) (reads : List String) (summary : WriteSummary) :
    Alike Mirrored (Run.settleIf o candidates scope reads summary) (Run.settleIf o candidates scope reads summary)
      l m := by
  unfold Run.settleIf
  apply alike_get_bind
  cases hlogged : l.files.isFile l.storagePath with
  | true =>
    rw [if_pos (show Ledger.hasStorage l = true from hlogged),
      if_pos (show Ledger.hasStorage m = true from h.stored hlogged)]
    exact alike_bind (h.alike_settle hlogged) fun _ _ _ _ _ hafter => alike_pure hafter _
  | false =>
    have hnone : m.todos = [] := by
      have hsame := h.same
      rw [h.shows.unlogged hlogged] at hsame
      exact List.map_eq_nil_iff.mp hsame.symm
    rw [if_neg (show ¬ Ledger.hasStorage l = true by exact Bool.eq_false_iff.mp hlogged)]
    split
    · refine alike_of_yields (yields_pure.mpr ⟨rfl, rfl⟩)
        (yields_bind.mpr ⟨_, _, yields_settle_of_nil hnone, yields_pure.mpr ⟨rfl, rfl⟩⟩) ⟨live, h⟩
    · exact alike_pure ⟨live, h⟩ _

/-! ## Runs -/

/-- The work on one file goes alike when there are no windows. -/
theorem alike_reconcile (h : Mirrors l m live) (hwritable : l.Writable) (source : String → Option String) :
    Alike Mirrored (Run.reconcile o {} (fun _ => source) r) (Run.reconcile o {} (fun _ => source) r) l m := by
  cases hsource : r.sourcePath.isEmpty with
  | true =>
    rw [Run.reconcile_of_sourceless _ _ _ hsource, Run.reconcile_of_sourceless _ _ _ hsource]
    exact alike_pure ⟨live, h⟩ _
  | false =>
    rw [Run.reconcile_eq _ _ _ hsource, Run.reconcile_eq _ _ _ hsource]
    apply alike_get_bind
    have hcandidates : (Candidates.extract ⟨o.baseDir, o.engine, {}⟩ source [r]).1 =
        candidatesOf o {} (source r.sourcePath) r := Candidates.extract_singleton _ _ r
    dsimp only
    rw [hcandidates]
    apply alike_bind (h.alike_writeIf hwritable)
    rintro summary l₁ m₁ - - ⟨live₁, hmirrors⟩
    exact hmirrors.alike_settleIf _ summary

/-- A run is prepared alike when there are no windows: nothing is wrong with the configuration. -/
theorem prepare_eq (h : Mirrors l m live) (hsource : Config.source l.files l.baseDir = .ok none)
    (hplain : o.overrides.isEmpty = true) :
    Run.prepare o l = Run.prepare o m ∧ ∀ format policy, Run.prepare o m = .ok (format, policy) → policy = {} := by
  have hproblem : Ledger.configProblem? l = none := Config.conflict?_of_no_source hsource
  have hproblem' : Ledger.configProblem? m = none := h.plain.problem
  have hpolicy : Ledger.policy l o.engine o.overrides = .ok {} := Config.load_of_no_source hsource hplain
  have hpolicy' : Ledger.policy m o.engine o.overrides = .ok {} := by
    show m.policy o.overrides = _
    rw [MemoryLedger.policy, if_pos hplain, h.plain.policy]
  constructor
  · unfold Run.prepare
    rw [hproblem, hproblem', hpolicy, hpolicy']
  · intro format policy hprepared
    exact Except.ok.inj ((Run.format_and_policy_of_prepare hprepared).2.symm.trans hpolicy')

/-- A run goes alike when there is no configuration and the log can be written. -/
theorem alike_formatter (h : Mirrors l m live) (hsource : Config.source l.files l.baseDir = .ok none)
    (hwritable : l.Writable) (hworking : o.compactOnly = false) (hplain : o.overrides.isEmpty = true)
    (source : String → Option String) (results : List LintResult) :
    Alike Mirrored (Run.formatter o (fun _ => source) results) (Run.formatter o (fun _ => source) results)
      l m := by
  obtain ⟨hprepare, hpolicy⟩ := h.prepare_eq hsource hplain
  unfold Run.formatter
  apply alike_get_bind
  rw [hprepare]
  apply alike_bind (Run.alike_ofExcept ⟨live, h⟩ _)
  rintro ⟨format, policy⟩ l₁ m₁ hprepared hprepared' hmirrored
  obtain ⟨hok, rfl⟩ := Run.yields_ofExcept.mp hprepared
  obtain rfl := hpolicy format policy hok
  dsimp only
  rw [hworking, if_neg Bool.false_ne_true, if_neg Bool.false_ne_true]
  refine alike_bind (alike_foldlM_range (fun i p l₂ m₂ _ hfirst hmirrored => ?_) hmirrored)
    fun p _ _ _ _ hafter => alike_pure hafter _
  obtain ⟨live₂, hmirrors⟩ := hmirrored
  have hreached : l₁.Reached l₂ := Run.untouched_or_remembers hfirst
  unfold Run.advance
  split
  · exact alike_pure ⟨live₂, hmirrors⟩ p
  · exact alike_bind (hmirrors.alike_reconcile (hreached.writable.mpr hwritable) source)
      fun step _ _ _ _ hafter => alike_pure hafter _

end Mirrors

/-! ## Runs one after the other -/

/-- A run as it takes place on a ledger in a file and on one in memory: one that does more than shorten the
storage, without a window that takes precedence. -/
structure Turn where
  /-- Whether the ledger in a file is opened anew. -/
  reopening : Bool
  today : Date
  options : RunOptions
  /-- The text of a source file. -/
  source : String → Option String
  results : List LintResult
  working : options.compactOnly = false
  plain : options.overrides.isEmpty = true

namespace Turn

/-- The ledger in a file that the run starts on. -/
def enter (v : Turn) (l : FileLedger) : FileLedger :=
  if v.reopening then .openIn l.files l.baseDir v.today else { l with today := v.today }

/-- What the run answers on a ledger in a file, and the ledger that it leaves. -/
def onFile (v : Turn) (l : FileLedger) : Except RunError RunOutcome × FileLedger :=
  (Run.formatter v.options (fun _ => v.source) v.results).run.run (v.enter l)

/-- What the run answers on a ledger in memory, and the ledger that it leaves. -/
def inMemory (v : Turn) (m : MemoryLedger) : Except RunError RunOutcome × MemoryLedger :=
  (Run.formatter v.options (fun _ => v.source) v.results).run.run m

end Turn

/-- What runs answer on a ledger in a file, one after the other, each with the identities and the snippets of
the todos that are live after it. -/
def FileLedger.trail : FileLedger → List Turn → List (Except RunError RunOutcome × Except LedgerError (List Todo))
  | _, [] => []
  | l, v :: rest =>
    ((v.onFile l).1, (v.onFile l).2.currentLive.map (·.toList.map Todo.bare)) :: trail (v.onFile l).2 rest

/-- What runs answer on a ledger in memory, one after the other, each with the identities and the snippets of
the todos that the ledger has after it. -/
def MemoryLedger.trail :
    MemoryLedger → List Turn → List (Except RunError RunOutcome × Except LedgerError (List Todo))
  | _, [] => []
  | m, v :: rest =>
    ((v.inMemory m).1, .ok ((v.inMemory m).2.todos.map Todo.bare)) :: trail (v.inMemory m).2 rest

namespace FileLedger

variable {l : FileLedger} {m : MemoryLedger} {live : Batch} {files : FileTree} {baseDir : String}

/-- A ledger whose runs cannot fail but for their options: it has the live todos of its log, there is no
configuration, and the log can be written. -/
structure Sound (l : FileLedger) : Prop where
  coherent : ∃ live, l.Coherent live
  unconfigured : Config.source l.files l.baseDir = .ok none
  writable : l.Writable

/-- A run leaves a sound ledger sound. -/
theorem Sound.ends_formatter (h : l.Sound) (o : RunOptions) (read : FileLedger → String → Option String)
    (results : List LintResult) : Ends Sound (Run.formatter o read results) l := by
  have hlocal : Ends _ (Run.formatter o read results) l :=
    Run.ends_formatter (invariant_sameBut l) ⟨rfl, .refl _ _⟩ o read results
  obtain ⟨hdir, hfiles⟩ := hlocal
  obtain ⟨hrc, hpackage⟩ := contents?_config hfiles
  refine ⟨Run.ends_formatter invariant_coherent h.coherent o read results, ?_, ?_⟩
  · rw [hdir, Config.source_congr hrc hpackage]
    exact h.unconfigured
  · exact (writable_iff_of_sameBut hdir hfiles).mpr h.writable

/-- A run starts on a sound ledger, which is mirrored as before. -/
theorem Sound.enter (h : l.Sound) (hmirrored : Mirrored l m) (v : Turn) :
    (v.enter l).Sound ∧ Mirrored (v.enter l) m := by
  obtain ⟨live, hmirrors⟩ := hmirrored
  obtain ⟨held, hcoherent⟩ := h.coherent
  obtain rfl := Except.ok.inj (hcoherent.currentLive_eq.symm.trans hmirrors.shows.current)
  have henter : (v.enter l).Coherent held ∧ (v.enter l).files = l.files ∧ (v.enter l).baseDir = l.baseDir := by
    unfold Turn.enter
    split
    · exact ⟨hcoherent.openIn v.today, rfl, rfl⟩
    · exact ⟨⟨hcoherent.reads, hcoherent.remembers, hcoherent.endsWhole⟩, rfl, rfl⟩
  obtain ⟨hcoherent', hfiles, hdir⟩ := henter
  have hpath := storagePath_congr hdir
  refine ⟨⟨⟨held, hcoherent'⟩, ?_, ?_⟩, held, hmirrors.plain, ⟨hcoherent'.currentLive_eq, ?_⟩, hmirrors.same,
    hmirrors.undated, ?_⟩
  · rw [hfiles, hdir]
    exact h.unconfigured
  · rw [Writable, hfiles, hpath]
    exact h.writable
  · rw [hfiles, hpath]
    exact hmirrors.shows.unlogged
  · rw [hfiles, hpath]
    exact hmirrors.stored

/-- Runs answer the same on a sound ledger and on one in memory that mirrors it, and leave the same todos. -/
theorem Sound.trail_eq (h : l.Sound) (hmirrored : Mirrored l m) (turns : List Turn) :
    l.trail turns = m.trail turns := by
  induction turns generalizing l m with
  | nil => rfl
  | cons v rest ih =>
    obtain ⟨hsound, live, hmirrors⟩ := h.enter hmirrored v
    obtain ⟨hsame, live', hafter⟩ := hmirrors.alike_formatter hsound.unconfigured hsound.writable v.working
      v.plain v.source v.results
    have hsound' : (v.onFile l).2.Sound := hsound.ends_formatter _ _ _
    have hanswer : (v.onFile l).1 = (v.inMemory m).1 := hsame
    have hkept : (v.onFile l).2.currentLive.map (·.toList.map Todo.bare) =
        .ok ((v.inMemory m).2.todos.map Todo.bare) := by
      rw [show (v.onFile l).2.currentLive = .ok live' from hafter.shows.current]
      exact congrArg Except.ok hafter.same
    rw [trail, MemoryLedger.trail, hanswer, hkept]
    exact congrArg _ (ih hsound' ⟨live', hafter⟩)

/-- A ledger that is opened in an empty directory is sound. -/
theorem sound_openIn (hempty : files.IsEmptyDirectory baseDir) (today : Date) :
    (openIn files baseDir today).Sound where
  coherent := exists_coherent_openIn (.inl (hempty.contents? isName_storageFile))
  unconfigured := Config.source_of_missing (hempty.contents? Config.isName_rcFile)
    (hempty.contents? Config.isName_packageFile)
  writable := by
    obtain ⟨u, hu⟩ := hempty.exists_update? isName_storageFile fun held => (held.getD (.text "")).append ""
    exact Option.isSome_iff_exists.mpr ⟨u, hu⟩

/-- A new ledger in memory mirrors one that is opened in an empty directory. -/
theorem mirrored_openIn (hempty : files.IsEmptyDirectory baseDir) (today : Date) :
    Mirrored (openIn files baseDir today) {} := by
  have hlog : files.contents? (openIn files baseDir today).storagePath = none :=
    hempty.contents? isName_storageFile
  refine ⟨.empty, ⟨rfl, rfl, rfl, rfl⟩, ⟨?_, fun _ => rfl⟩, rfl, fun t ht => (by cases ht), fun hlogged => ?_⟩
  · show (openIn files baseDir today).readEntries.map LogEntry.live = _
    rw [readEntries_of_none hlog]
    rfl
  · rw [show (openIn files baseDir today).files = files from rfl, FileTree.isFile, hlog] at hlogged
    cases hlogged

end FileLedger

/-- From an empty directory on, runs answer on a ledger in a file what they answer on a new ledger in memory,
on any days and whether the ledger is kept or opened anew, and after each of them the two have the same todos
in the same order. -/
theorem trail_openIn {files : FileTree} {baseDir : String} (hempty : files.IsEmptyDirectory baseDir)
    (today : Date) (turns : List Turn) :
    (FileLedger.openIn files baseDir today).trail turns = ({} : MemoryLedger).trail turns :=
  (FileLedger.sound_openIn hempty today).trail_eq (FileLedger.mirrored_openIn hempty today) turns

/-- A run that makes a todo of an error, and a run after the error is gone. -/
def exampleTurns : List Turn :=
  [{ reopening := true
     today := FileLedger.exampleDay
     options := { Run.exampleCheck with updating := true }
     source := fun _ => none
     results := [Run.exampleResult]
     working := rfl
     plain := rfl },
   { reopening := false
     today := FileLedger.exampleDay
     options := Run.exampleCheck
     source := fun _ => none
     results := [{ Run.exampleResult with warnings := [] }]
     working := rfl
     plain := rfl }]

/-- On both ledgers, the first run leaves one todo and the second none. -/
theorem trail_openIn_of_example :
    Run.noFiles.IsEmptyDirectory "" ∧
      (FileLedger.openIn Run.noFiles "" FileLedger.exampleDay).trail exampleTurns =
        ({} : MemoryLedger).trail exampleTurns ∧
      (({} : MemoryLedger).trail exampleTurns).map (fun (answer, kept) =>
        (answer.isOk, kept.toOption.map List.length)) = [(true, some 1), (true, some 0)] := by
  have hresolve : Run.noFiles.resolve? (Path.join "" FileLedger.storageFile) =
      some ([] ++ [FileLedger.storageFile]) := by decide +kernel
  have hempty : Run.noFiles.IsEmptyDirectory "" := .of_name rfl FileLedger.isName_storageFile hresolve
  exact ⟨hempty, trail_openIn hempty FileLedger.exampleDay exampleTurns, by decide +kernel⟩

end LintDebt
