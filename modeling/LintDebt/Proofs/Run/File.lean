import LintDebt.Proofs.Candidates
import LintDebt.Proofs.Changes
import LintDebt.Proofs.Ledger.Operations

/-!
# What one file brings about

The live todos and the results after the work on one file, as lists.

* `LintDebt.Run.outlasts`, `LintDebt.Run.drops`: the live todos that the work on a file leaves, and those that
  it takes out.
* `LintDebt.Run.newTodos`: the todos that an update writes for a file.
* `LintDebt.Run.newSeverity?`: the severity that a diagnostic gets from its todo.
* `LintDebt.Run.Settled`: what the work on a file leaves once its candidates are written.
* `LintDebt.Run.Worked`: what it leaves in the end.
* `LintDebt.Run.worked_reconcile`: the work on one file leaves this.
* `LintDebt.Run.shows_reconcile`: for a file that keys tell apart, these live todos and these severities.
-/

namespace LintDebt.Run

open Candidates (keyOf firstErrors isFirst)
open FileLedger (reproduced abandoned matched)

/-! ## Errors and todos of a file -/

/-- Whether a todo belongs to the engine of a run and to the file of a result. -/
def concerns (o : RunOptions) (r : LintResult) (t : Todo) : Bool :=
  t.engine == o.engine && t.filePath == r.path o.baseDir

/-- The errors of a result, each with all that its key is made of. -/
def errorsOf (o : RunOptions) (r : LintResult) : List Todo :=
  Candidates.errors o.engine (r.path o.baseDir) r.warnings

/-- The keys of the errors of a result. -/
def errorKeys (o : RunOptions) (r : LintResult) : List String :=
  (errorsOf o r).map Todo.key

/-- Whether the work on a file leaves a todo that was live before.  Those of other files or engines
stay.  A reproduced one goes when it has expired and todos are cleaned up, any other goes when todos are
written or cleaned up. -/
def outlasts (o : RunOptions) (l : FileLedger) (r : LintResult) (t : Todo) : Bool :=
  !(concerns o r t &&
    if (errorKeys o r).contains t.key then o.cleaning && l.isExpired t
    else o.updating || o.cleaning)

/-- Whether a result is for the file of a todo.  A result without a path is for all files. -/
def covers (o : RunOptions) (r : LintResult) (t : Todo) : Bool :=
  (r.path o.baseDir).isEmpty || t.filePath == r.path o.baseDir

/-- Whether the work on a file takes out a todo that was live before: a reproduced one when it has expired
and todos are cleaned up, another of the engine when todos are written or cleaned up. -/
def drops (o : RunOptions) (l : FileLedger) (r : LintResult) (t : Todo) : Bool :=
  covers o r t &&
    if (errorKeys o r).contains t.key then o.cleaning && l.isExpired t
    else t.engine == o.engine && (o.updating || o.cleaning)

/-- The todo that is written for an error: created today, and decaying as its rule says. -/
def newTodo (o : RunOptions) (policy : DecayPolicy) (l : FileLedger) (contents : Option String)
    (r : LintResult) (d : Diagnostic) : Todo :=
  let window := (policy.windowFor d.ruleId).getD {}
  { Candidates.identity o.engine (r.path o.baseDir) d with
    snippet := match contents with
      | some text => d.span.sourceLines text
      | none => ""
    createdDate := some l.today
    warnDate := l.after window.warn
    errorDate := l.after window.error }

/-- The todos that an update writes for a result: one for each key that is not live, from the first
error with this key. -/
def newTodos (o : RunOptions) (policy : DecayPolicy) (l : FileLedger) (live : Batch)
    (contents : Option String) (r : LintResult) : List Todo :=
  if o.updating then
    ((firstErrors o.engine (r.path o.baseDir) r.warnings).filter fun (d, _) =>
      !live.contains (keyOf o.engine (r.path o.baseDir) d)).map fun (d, _) =>
        newTodo o policy l contents r d
  else []

/-- The severity that a diagnostic gets: the first error with its key gets that of the live todo with
this key, unless the todo has expired. -/
def newSeverity? (o : RunOptions) (l : FileLedger) (live : List Todo) (r : LintResult) (place : Nat)
    (d : Diagnostic) : Option Severity :=
  if isFirst o.engine (r.path o.baseDir) r.warnings place d then
    match live.find? (·.key == keyOf o.engine (r.path o.baseDir) d) with
    | some t =>
      if l.isExpired t then none
      else some (if l.hasCome t.warnDate then .warning else .todo)
    | none => none
  else none

/-- The diagnostics that stand for the live todos of a file that no error reproduces, when they are not
removed. -/
def violations (o : RunOptions) (live : List Todo) (r : LintResult) : List Diagnostic :=
  if o.updating || o.cleaning then []
  else (live.filter fun t => concerns o r t && !(errorKeys o r).contains t.key).map Todo.violation

/-- A result held against live todos. -/
def heldAgainst (o : RunOptions) (l : FileLedger) (live : List Todo) (r : LintResult) : LintResult :=
  { r with warnings :=
      r.warnings.mapIdx (fun i d => d.demoted (newSeverity? o l live r i d)) ++
        violations o live r }

/-! ## Candidates -/

/-- The candidates of a result. -/
def candidatesOf (o : RunOptions) (policy : DecayPolicy) (contents : Option String)
    (r : LintResult) : Batch :=
  .ofList (Candidates.ofWarnings ⟨o.baseDir, o.engine, policy⟩ (r.path o.baseDir) contents r.warnings)

/-- The scope of a result. -/
def scopeOf (o : RunOptions) (policy : DecayPolicy) (r : LintResult) : Scope :=
  ⟨o.engine, r.path o.baseDir, policy⟩

section Candidates

variable {o : RunOptions} {policy : DecayPolicy} {contents : Option String} {r : LintResult}

/-- A file with a path is a scope of its own. -/
theorem covers_of_path (h : r.path o.baseDir ≠ "") (t : Todo) :
    covers o r t = (t.filePath == r.path o.baseDir) := by
  have hpath : (r.path o.baseDir).isEmpty = false := by
    rw [← Bool.not_eq_true, String.isEmpty_iff]
    exact h
  rw [covers, hpath, Bool.false_or]

/-- A result with a path concerns the todos of the engine for its file. -/
theorem concerns_of_path (h : r.path o.baseDir ≠ "") (t : Todo) :
    concerns o r t = (t.engine == o.engine && covers o r t) := by
  rw [covers_of_path h, concerns]

/-- On the same day the work on a file takes out the same todos. -/
theorem drops_congr {l l' : FileLedger} (h : l'.today = l.today) : drops o l' r = drops o l r := by
  funext t
  rw [drops, drops, FileLedger.isExpired_congr h]

/-- The work on a file takes out only todos that the file is for. -/
theorem covers_of_drops {l : FileLedger} {t : Todo} (h : drops o l r t = true) : covers o r t = true :=
  (Bool.and_eq_true_iff.mp h).1

/-- The scope of a result covers the todos that the result is for. -/
theorem covers_scopeOf (t : Todo) : (scopeOf o policy r).covers t = covers o r t := rfl

/-- The candidates contain the keys of the errors. -/
theorem contains_candidatesOf (key : String) :
    (candidatesOf o policy contents r).contains key = (errorKeys o r).contains key :=
  Candidates.contains_ofWarnings

/-- A todo is written as its candidate says. -/
theorem stored_date_ofDiagnostic (l : FileLedger) (d : Diagnostic) (place : Nat) :
    (l.date (some policy) (Candidates.ofDiagnostic ⟨o.baseDir, o.engine, policy⟩ (r.path o.baseDir)
      contents place d)).stored = newTodo o policy l contents r d := by
  unfold FileLedger.date
  rw [if_neg (by exact Bool.false_ne_true)]
  have hwindow : ((policy.windowFor d.ruleId <|> policy.windowFor d.ruleId)).getD {} =
      (policy.windowFor d.ruleId).getD {} := by
    cases policy.windowFor d.ruleId <;> rfl
  unfold newTodo
  rw [← hwindow]
  rfl

end Candidates

/-! ## Demotions -/

/-- The demotion that a reproduced todo asks for. -/
def demotionOf (l : FileLedger) (t : Todo) : Option Demotion :=
  t.origin.map fun place => ⟨t.filePath, place, l.severity t⟩

/-- The demotions depend on the ledger through the day alone. -/
theorem demotionOf_congr {l l' : FileLedger} (h : l'.today = l.today) :
    demotionOf l' = demotionOf l := by
  funext t
  rw [demotionOf, demotionOf, FileLedger.severity_congr h]

/-- A todo that has not expired has not the severity of an error. -/
theorem severity_of_not_expired {l : FileLedger} {t : Todo} (h : l.isExpired t = false) :
    l.severity t = if l.hasCome t.warnDate then .warning else .todo := by
  unfold FileLedger.severity
  rw [h, if_neg Bool.false_ne_true]

/-- A todo without dates has not expired, and is a todo. -/
theorem severity_of_undated {l : FileLedger} {t : Todo} (h : t.warnDate = none ∧ t.errorDate = none) :
    l.isExpired t = false ∧ l.severity t = .todo := by
  simp [FileLedger.severity, FileLedger.isExpired, FileLedger.hasCome, h.1, h.2]

/-- Todos whose severities are known, and are not errors, all ask for their demotions. -/
theorem demotions_of_severities {σ : Type} [Ledger σ] {s : σ} {severity : Todo → Severity} {ts : List Todo}
    (h : ∀ t ∈ ts, Ledger.severityCode s t = (severity t).code ∧ severity t ≠ .error) (c : Changes) :
    demotions s ts c = .ok { c with
      demotions := c.demotions ++ ts.filterMap fun t => t.origin.map (⟨t.filePath, ·, severity t⟩) } := by
  induction ts generalizing c with
  | nil => simp [demotions]
  | cons t rest ih =>
    obtain ⟨hcode, hlive⟩ := h t List.mem_cons_self
    have hstep : demotions s (t :: rest) c = demotions s rest (c.demote t (severity t)) := by
      rw [demotions, hcode, Severity.ofCode?_code]
      cases hseverity : severity t with
      | error => exact absurd hseverity hlive
      | todo | off | warning => rfl
    rw [hstep, ih fun u hu => h u (List.mem_cons_of_mem t hu)]
    unfold Changes.demote
    cases horigin : t.origin with
    | none => simp [horigin]
    | some place => simp [horigin]

/-- Todos that have not expired all ask for their demotions. -/
theorem demotions_eq {l : FileLedger} {ts : List Todo} (h : ∀ t ∈ ts, l.isExpired t = false)
    (c : Changes) :
    demotions l ts c = .ok { c with demotions := c.demotions ++ ts.filterMap (demotionOf l) } := by
  apply demotions_of_severities
  intro t ht
  refine ⟨rfl, ?_⟩
  rw [severity_of_not_expired (h t ht)]
  cases l.hasCome t.warnDate <;> decide

/-- Each todo that no error reproduces is reported. -/
theorem foldl_violate (ts : List Todo) (c : Changes) :
    ts.foldl Changes.violate c =
      { c with violations := c.violations ++ ts.map fun t => ⟨t.filePath, t.violation⟩ } := by
  induction ts generalizing c with
  | nil => simp
  | cons t rest ih =>
    rw [List.foldl_cons, ih]
    simp [Changes.violate]

/-! ## Steps -/

section Steps

variable {o : RunOptions} {policy : DecayPolicy} {contents : Option String} {r : LintResult}
  {l l' : FileLedger} {live : Batch}

/-- The live todos once the errors of a file are written, if they are. -/
def written (o : RunOptions) (policy : DecayPolicy) (l : FileLedger) (live : Batch)
    (contents : Option String) (r : LintResult) : List Todo :=
  if o.updating then
    live.toList.filter (fun t =>
        !(covers o r t && t.engine == o.engine && !(errorKeys o r).contains t.key)) ++
      newTodos o policy l live contents r
  else live.toList

/-- The live todos once a write of the candidates of a file is applied to them. -/
theorem toList_applyAll_candidatesOf (hupdating : o.updating = true) :
    (live.applyAll (l.writeEntries (candidatesOf o policy contents r) (scopeOf o policy r)
      live)).toList = written o policy l live contents r := by
  rw [FileLedger.toList_applyAll_writeEntries, written, newTodos, if_pos hupdating, if_pos hupdating]
  congr 1
  · refine List.filter_congr fun t _ => ?_
    rw [covers_scopeOf, contains_candidatesOf]
    rfl
  · rw [candidatesOf, Batch.toList_ofList, Candidates.firsts_ofWarnings, List.filter_map, List.map_map]
    refine List.map_congr_left fun (d, place) _ => ?_
    exact stored_date_ofDiagnostic l d place

/-- The live todos have different keys once the errors of a file are written. -/
theorem nodup_keys_written : ((written o policy l live contents r).map Todo.key).Nodup := by
  cases hupdating : o.updating with
  | true =>
    rw [← toList_applyAll_candidatesOf hupdating]
    exact Batch.nodup_keys_toList _
  | false =>
    rw [written, hupdating, if_neg Bool.false_ne_true]
    exact live.nodup_keys_toList

/-- Writing the errors of a file, or not; there is a log then, unless nothing has changed. -/
theorem live_writeIf (h : l.currentLive = .ok live) {summary : WriteSummary}
    (hy : Yields (writeIf o (candidatesOf o policy contents r) (scopeOf o policy r)) l summary l') :
    ∃ live', l'.currentLive = .ok live' ∧ live'.toList = written o policy l live contents r ∧
      (l'.files.isFile l'.storagePath = false → live' = live ∧ l.files.isFile l.storagePath = false) := by
  unfold writeIf at hy
  cases hupdating : o.updating with
  | false =>
    rw [hupdating, if_neg Bool.false_ne_true] at hy
    obtain ⟨-, rfl⟩ := yields_pure.mp hy
    refine ⟨live, h, ?_, fun hfile => ⟨rfl, hfile⟩⟩
    rw [written, hupdating, if_neg Bool.false_ne_true]
  | true =>
    rw [hupdating, if_pos rfl] at hy
    obtain ⟨hcache, hunlogged⟩ := FileLedger.cached_write h (yields_onLedger.mp hy)
    refine ⟨_, by rw [FileLedger.currentLive, hcache], toList_applyAll_candidatesOf hupdating,
      fun hfile => ?_⟩
    obtain ⟨hnone, rfl⟩ := hunlogged hfile
    exact ⟨by rw [hnone]; rfl, hfile⟩

/-- Taking todos out, or not when there are none. -/
theorem cached_clear (h : l.cache = some live) {stale : Batch} {u : PUnit}
    (hy : Yields (clear stale) l u l') :
    l'.today = l.today ∧ ∃ live', l'.cache = some live' ∧
      live'.toList = live.toList.filter fun t => !stale.contains t.key := by
  unfold clear at hy
  split at hy
  · next hempty =>
    obtain ⟨-, rfl⟩ := yields_pure.mp hy
    refine ⟨rfl, live, h, (List.filter_eq_self.mpr fun t _ => ?_).symm⟩
    rw [Batch.isEmpty_eq, List.isEmpty_iff] at hempty
    rw [Bool.not_eq_true', ← Bool.not_eq_true, Batch.contains_iff, hempty]
    exact List.not_mem_nil
  · have hexchange := yields_onLedger.mp hy
    have htoday := (FileLedger.invariant_today l.today).ends_exchange rfl .empty stale
    exact ⟨htoday.of_yields hexchange, FileLedger.cached_exchange h hexchange⟩

/-- Taking out the todos that are stale, when todos are cleaned up. -/
theorem cached_clearIf (h : l.cache = some live) {remove expired : Batch} {u : PUnit}
    (hy : Yields (if o.cleaning then clear (remove.union expired) else pure ()) l u l') :
    l'.today = l.today ∧ ∃ live', l'.cache = some live' ∧ live'.toList =
      live.toList.filter fun t => !(o.cleaning &&
        ((remove.toList ++ expired.toList).map Todo.key).contains t.key) := by
  have hstale (key : String) : (remove.union expired).contains key =
      ((remove.toList ++ expired.toList).map Todo.key).contains key := by
    rw [Batch.contains_union, List.map_append, Bool.eq_iff_iff, Bool.or_eq_true,
      Batch.contains_iff, Batch.contains_iff, List.contains_iff_mem, List.mem_append]
  cases hcleaning : o.cleaning with
  | false =>
    rw [hcleaning, if_neg Bool.false_ne_true] at hy
    obtain ⟨-, rfl⟩ := yields_pure.mp hy
    exact ⟨rfl, live, h, (List.filter_eq_self.mpr fun t _ => rfl).symm⟩
  | true =>
    rw [hcleaning, if_pos rfl] at hy
    obtain ⟨htoday, live', hcache, hlist⟩ := cached_clear h hy
    refine ⟨htoday, live', hcache, hlist.trans (List.filter_congr fun t _ => ?_)⟩
    rw [hstale, Bool.true_and]

/-- The changes that todos ask for which have not expired, besides the reports of the todos that are not
removed when todos are not cleaned up. -/
theorem changes_of_demotions {stable removed : List Todo} {changes : Changes}
    (hstable : ∀ t ∈ stable, l.isExpired t = false)
    (h : demotions l stable (if o.cleaning then {} else removed.foldl Changes.violate {}) =
      .ok changes) :
    changes.demotions = stable.filterMap (demotionOf l) ∧
      changes.violations =
        if o.cleaning then [] else removed.map fun t => ⟨t.filePath, t.violation⟩ := by
  rw [demotions_eq hstable] at h
  obtain rfl := Except.ok.inj h
  constructor
  · cases o.cleaning <;> simp [foldl_violate]
  · cases o.cleaning <;> simp [foldl_violate]

/-- What the work on a file leaves of the live todos, and the changes that it asks for, once its candidates
are written: of the todos of the scope, those that are reproduced and have expired and those of the engine
that are not reproduced are taken out when todos are cleaned up; the other reproduced ones ask for demotions,
and those that are not reproduced are reported when todos are not cleaned up. -/
structure Settled (o : RunOptions) (candidates : Batch) (scope : Scope) (l : FileLedger)
    (before after : List Todo) (changes : Changes) : Prop where
  left : after = before.filter fun t => !(o.cleaning && (scope.covers t &&
    if candidates.contains t.key then l.isExpired t else scope.owns t))
  demotions : changes.demotions = ((reproduced candidates scope before).filter
    (!l.isExpired ·)).filterMap (demotionOf l)
  violations : changes.violations = if o.cleaning then [] else
    (abandoned candidates scope before).map fun t => ⟨t.filePath, t.violation⟩

/-- What follows the writing when there is a log. -/
theorem live_settle (h : l.currentLive = .ok live) {candidates : Batch} {scope : Scope}
    {step : FileStep} (hy : Yields (settle o candidates scope) l step l') :
    ∃ live', l'.currentLive = .ok live' ∧
      Settled o candidates scope l live.toList live'.toList step.changes := by
  obtain ⟨batches, l₁, u, changes, hsort, hclear, hchanges, rfl⟩ := yields_settle.mp hy
  obtain ⟨rfl, hstable, hexpired, hremove⟩ := FileLedger.toList_sortOut h hsort
  have hremembers : (l.remembering live).cache = some live := rfl
  obtain ⟨htoday, live', hcache, hlist⟩ := cached_clearIf hremembers hclear
  replace htoday : l'.today = l.today := htoday
  have hunexpired : ∀ t ∈ batches.stable.toList, l'.isExpired t = false := by
    intro t ht
    rw [hstable] at ht
    rw [FileLedger.isExpired_congr htoday]
    simpa using (List.mem_filter.mp ht).2
  obtain ⟨hset, hadded⟩ := changes_of_demotions hunexpired hchanges
  rw [hremove, hexpired] at hlist
  rw [hstable, demotionOf_congr htoday] at hset
  rw [hremove] at hadded
  refine ⟨live', by rw [FileLedger.currentLive, hcache], ?_, ?_, ?_⟩
  · rw [hlist]
    refine List.filter_congr fun t ht => ?_
    rw [FileLedger.contains_swept live.nodup_keys_toList ht]
  · rw [← hset]
    cases o.cleaning <;> rfl
  · rw [← hadded]
    cases o.cleaning <;> rfl

/-- What follows the writing: nothing without a log. -/
theorem live_settleIf (h : l.currentLive = .ok live) {candidates : Batch} {scope : Scope}
    {reads : List String} {summary : WriteSummary} {step : FileStep}
    (hy : Yields (settleIf o candidates scope reads summary) l step l') :
    (l.files.isFile l.storagePath = false ∧ l' = l ∧ step.changes = {}) ∨
      l'.files.isFile l'.storagePath = true ∧ ∃ live', l'.currentLive = .ok live' ∧
        Settled o candidates scope l live.toList live'.toList step.changes := by
  rcases yields_settleIf.mp hy with ⟨hunlogged, rfl, rfl⟩ | ⟨hlogged, settled, hsettle, rfl⟩
  · exact Or.inl ⟨hunlogged, rfl, rfl⟩
  · obtain ⟨live', hcurrent, hsettled⟩ := live_settle h hsettle
    have hstays := (ends_settle FileLedger.invariant_logged hlogged o _ _).of_yields hsettle
    exact Or.inr ⟨hstays, live', hcurrent, hsettled.left, hsettled.demotions, hsettled.violations⟩

/-- The work on a file with a source writes its candidates and settles them. -/
theorem yields_reconcile {read : FileLedger → String → Option String}
    (hsource : r.sourcePath.isEmpty = false) {step : FileStep} :
    Yields (reconcile o policy read r) l step l' ↔ ∃ summary l₁,
      Yields (writeIf o (candidatesOf o policy (read l r.sourcePath) r) (scopeOf o policy r)) l
        summary l₁ ∧
      Yields (settleIf o (candidatesOf o policy (read l r.sourcePath) r) (scopeOf o policy r)
        (Candidates.extract ⟨o.baseDir, o.engine, policy⟩ (read l) [r]).2 summary) l₁ step l' := by
  have hcandidates : candidatesOf o policy (read l r.sourcePath) r =
      (Candidates.extract ⟨o.baseDir, o.engine, policy⟩ (read l) [r]).1 :=
    (Candidates.extract_singleton _ _ r).symm
  rw [reconcile_eq o policy read hsource, yields_get_bind, hcandidates, ← yields_bind]
  rfl

end Steps

/-! ## The todos in the end -/

section Todos

variable {o : RunOptions} {policy : DecayPolicy} {contents : Option String} {r : LintResult}
  {l : FileLedger} {live : Batch}

/-- The key of a first error is that of an error. -/
theorem contains_keyOf_of_mem_firstErrors {d : Diagnostic} {place : Nat}
    (h : (d, place) ∈ firstErrors o.engine (r.path o.baseDir) r.warnings) :
    (errorKeys o r).contains (keyOf o.engine (r.path o.baseDir) d) = true := by
  obtain ⟨hat, hfirst⟩ := Candidates.mem_firstErrors.mp h
  have herror : d.isError = true := (Bool.and_eq_true_iff.mp hfirst).1
  have hin : Candidates.identity o.engine (r.path o.baseDir) d ∈ errorsOf o r :=
    List.mem_map_of_mem (List.mem_filter.mpr ⟨List.mem_of_getElem? hat, herror⟩)
  rw [List.contains_iff_mem]
  exact List.mem_map.mpr ⟨_, hin, rfl⟩

/-- Where a key is that of an error, there is a first error with this key. -/
theorem exists_mem_firstErrors {key : String} (hkey : (errorKeys o r).contains key = true) :
    ∃ d place, (d, place) ∈ firstErrors o.engine (r.path o.baseDir) r.warnings ∧
      keyOf o.engine (r.path o.baseDir) d = key := by
  -- Which source text and which policy the candidates have does not matter.
  have hkeys := @Candidates.keys_ofWarnings ⟨o.baseDir, o.engine, {}⟩ (r.path o.baseDir) none
    r.warnings
  rw [List.contains_iff_mem, errorKeys, errorsOf, ← hkeys, ← Todo.mem_keys_firsts,
    Candidates.firsts_ofWarnings, List.map_map] at hkey
  obtain ⟨⟨d, place⟩, hmem, rfl⟩ := List.mem_map.mp hkey
  exact ⟨d, place, hmem, rfl⟩

/-- A new todo is one of the file, and its key is that of an error. -/
theorem mem_newTodos {t : Todo} (h : t ∈ newTodos o policy l live contents r) :
    concerns o r t = true ∧ (errorKeys o r).contains t.key = true := by
  unfold newTodos at h
  split at h
  · obtain ⟨⟨d, place⟩, hmem, rfl⟩ := List.mem_map.mp h
    refine ⟨by simp [concerns, newTodo, Candidates.identity], ?_⟩
    exact contains_keyOf_of_mem_firstErrors (List.mem_filter.mp hmem).1
  · cases h

/-- Under a policy without windows, new todos have no dates. -/
theorem undated_of_mem_newTodos {t : Todo} (ht : t ∈ newTodos o {} l live contents r) :
    t.warnDate = none ∧ t.errorDate = none := by
  unfold newTodos at ht
  split at ht
  · obtain ⟨⟨d, place⟩, -, rfl⟩ := List.mem_map.mp ht
    exact ⟨rfl, rfl⟩
  · cases ht

/-- New todos have keys that are not live. -/
theorem contains_of_mem_newTodos {t : Todo} (ht : t ∈ newTodos o policy l live contents r) :
    live.contains t.key = false := by
  unfold newTodos at ht
  split at ht
  · obtain ⟨⟨d, place⟩, hmem, rfl⟩ := List.mem_map.mp ht
    exact (Bool.not_eq_true' _).mp (List.mem_filter.mp hmem).2
  · cases ht

/-- When the live todos with the key of an error are those of its file, then so are the todos once the
errors are written. -/
theorem concerns_of_mem_written
    (hown : ∀ t ∈ live.toList, (errorKeys o r).contains t.key = true → concerns o r t = true) :
    ∀ t ∈ written o policy l live contents r, (errorKeys o r).contains t.key = true →
      concerns o r t = true := by
  intro t ht hkey
  unfold written at ht
  split at ht
  · rcases List.mem_append.mp ht with h | h
    · exact hown t (List.mem_filter.mp h).1 hkey
    · exact (mem_newTodos h).1
  · exact hown t ht hkey

/-- A result is for the file of a todo that it concerns. -/
theorem covers_of_concerns {t : Todo} (h : concerns o r t = true) : covers o r t = true := by
  rw [covers, (Bool.and_eq_true_iff.mp h).2, Bool.or_true]

/-- When a reproduced todo is one of the file, it is dropped unless it outlasts the file. -/
theorem drops_eq_not_outlasts (hpath : r.path o.baseDir ≠ "") {t : Todo}
    (hown : (errorKeys o r).contains t.key = true → concerns o r t = true) :
    drops o l r t = !outlasts o l r t := by
  unfold drops outlasts
  cases hkey : (errorKeys o r).contains t.key with
  | true =>
    rw [covers_of_concerns (hown hkey), hown hkey, if_pos rfl, if_pos rfl, Bool.not_not]
  | false =>
    rw [concerns_of_path hpath]
    cases covers o r t <;> cases t.engine == o.engine <;> simp

/-- What is left of the todos once the errors are written, when those that are swept up are taken out
if todos are cleaned up: the live todos that are not dropped, and the new ones that have not expired. -/
theorem filter_written :
    (written o policy l live contents r).filter (fun t => !(o.cleaning && (covers o r t &&
        if (errorKeys o r).contains t.key then l.isExpired t else t.engine == o.engine))) =
      live.toList.filter (!drops o l r ·) ++
        (newTodos o policy l live contents r).filter fun t => !(o.cleaning && l.isExpired t) := by
  have hnew : (newTodos o policy l live contents r).filter (fun t => !(o.cleaning && (covers o r t &&
      if (errorKeys o r).contains t.key then l.isExpired t else t.engine == o.engine))) =
        (newTodos o policy l live contents r).filter fun t => !(o.cleaning && l.isExpired t) := by
    refine List.filter_congr fun t ht => ?_
    obtain ⟨hconcerns, hin⟩ := mem_newTodos ht
    rw [covers_of_concerns hconcerns, hin, if_pos rfl, Bool.true_and]
  unfold written
  cases hupdating : o.updating with
  | true =>
    rw [if_pos rfl, List.filter_append, hnew, List.filter_filter]
    congr 1
    refine List.filter_congr fun t _ => ?_
    rw [drops, hupdating]
    cases covers o r t <;> cases (errorKeys o r).contains t.key <;> cases o.cleaning <;>
      cases t.engine == o.engine <;> simp
  | false =>
    have hnone : newTodos o policy l live contents r = [] := by
      rw [newTodos, hupdating, if_neg Bool.false_ne_true]
    rw [if_neg Bool.false_ne_true, hnone, List.filter_nil, List.append_nil]
    refine List.filter_congr fun t _ => ?_
    rw [drops, hupdating]
    cases covers o r t <;> cases (errorKeys o r).contains t.key <;> cases o.cleaning <;> simp

end Todos

/-! ## The severities in the end -/

section Severities

variable {o : RunOptions} {policy : DecayPolicy} {contents : Option String} {r : LintResult}
  {l : FileLedger} {ts : List Todo}

/-- The severity that the diagnostic at a place gets. -/
def severityAt (o : RunOptions) (l : FileLedger) (ts : List Todo) (r : LintResult) (place : Nat) :
    Option Severity :=
  r.warnings[place]?.bind (newSeverity? o l ts r place)

/-- A diagnostic gets the severity of its todo: it is the first error with its key, and the todo with this
key has not expired. -/
theorem severityAt_eq_some_iff {place : Nat} {s : Severity} :
    severityAt o l ts r place = some s ↔
      ∃ d t, (d, place) ∈ firstErrors o.engine (r.path o.baseDir) r.warnings ∧
        ts.find? (·.key == keyOf o.engine (r.path o.baseDir) d) = some t ∧
        l.isExpired t = false ∧ s = l.severity t := by
  unfold severityAt newSeverity?
  rw [Option.bind_eq_some_iff]
  constructor
  · rintro ⟨d, hat, hset⟩
    split at hset
    · next hfirst =>
      split at hset
      · next t hfind =>
        split at hset
        · cases hset
        · next hexp =>
          have hunexpired : l.isExpired t = false := Bool.eq_false_iff.mpr hexp
          refine ⟨d, t, Candidates.mem_firstErrors.mpr ⟨hat, hfirst⟩, hfind, hunexpired, ?_⟩
          rw [severity_of_not_expired hunexpired]
          exact (Option.some.inj hset).symm
      · cases hset
    · cases hset
  · rintro ⟨d, t, hmem, hfind, hunexpired, rfl⟩
    obtain ⟨hat, hfirst⟩ := Candidates.mem_firstErrors.mp hmem
    refine ⟨d, hat, ?_⟩
    rw [if_pos hfirst, hfind, severity_of_not_expired hunexpired]
    simp only [hunexpired]
    rfl

/-- The demotions that the reproduced todos ask for. -/
def demotionsOf (o : RunOptions) (policy : DecayPolicy) (contents : Option String) (r : LintResult)
    (l : FileLedger) (ts : List Todo) : List Demotion :=
  ((reproduced (candidatesOf o policy contents r) (scopeOf o policy r) ts).filter
    (!l.isExpired ·)).filterMap (demotionOf l)

/-- A demotion is asked for by a live todo that is the one with the key of a first error, whose place it
names. -/
theorem mem_demotionsOf {d : Demotion} :
    d ∈ demotionsOf o policy contents r l ts ↔
      ∃ t ∈ ts, (scopeOf o policy r).covers t = true ∧ l.isExpired t = false ∧
        ∃ w place, (w, place) ∈ firstErrors o.engine (r.path o.baseDir) r.warnings ∧
          keyOf o.engine (r.path o.baseDir) w = t.key ∧ d = ⟨t.filePath, place, l.severity t⟩ := by
  unfold demotionsOf
  rw [List.mem_filterMap]
  constructor
  · rintro ⟨u, hu, hdemotion⟩
    obtain ⟨hreproduced, hexp⟩ := List.mem_filter.mp hu
    obtain ⟨t, ht, hcovers, hmatch⟩ := FileLedger.mem_reproduced.mp hreproduced
    obtain ⟨c, hc, rfl⟩ := Option.map_eq_some_iff.mp hmatch
    obtain ⟨w, place, hmem, hkey, rfl⟩ := Candidates.get?_ofWarnings.mp hc
    refine ⟨t, ht, hcovers, (Bool.not_eq_true' _).mp hexp, w, place, hmem, hkey, ?_⟩
    exact (Option.some.inj hdemotion).symm
  · rintro ⟨t, ht, hcovers, hexp, w, place, hmem, hkey, rfl⟩
    let c := Candidates.ofDiagnostic ⟨o.baseDir, o.engine, policy⟩ (r.path o.baseDir) contents place w
    have hc : (candidatesOf o policy contents r).get? t.key = some c :=
      Candidates.get?_ofWarnings.mpr ⟨w, place, hmem, hkey, rfl⟩
    have hmatch : matched (candidatesOf o policy contents r) t =
        some { t with origin := c.origin, decay := c.decay } := by
      rw [matched, hc]
      rfl
    refine ⟨_, List.mem_filter.mpr ⟨FileLedger.mem_reproduced.mpr ⟨t, ht, hcovers, hmatch⟩, ?_⟩, rfl⟩
    exact (Bool.not_eq_true' _).mpr hexp

/-- The demotions set the severities that the diagnostics get. -/
theorem foldl_demotionsOf (hnodup : (ts.map Todo.key).Nodup)
    (hown : ∀ t ∈ ts, (errorKeys o r).contains t.key = true → concerns o r t = true) :
    (demotionsOf o policy contents r l ts).foldl Changes.demoteAt r.warnings =
      r.warnings.mapIdx fun i d => d.demoted (newSeverity? o l ts r i d) := by
  have hsets : ∀ d ∈ demotionsOf o policy contents r l ts,
      severityAt o l ts r d.origin = some d.severity := by
    intro d hd
    obtain ⟨t, ht, -, hexp, w, place, hmem, hkey, rfl⟩ := mem_demotionsOf.mp hd
    refine severityAt_eq_some_iff.mpr ⟨w, t, hmem, ?_, hexp, rfl⟩
    exact (Todo.find?_eq_some_iff hnodup).mpr ⟨ht, hkey.symm⟩
  have hset : ∀ i s, severityAt o l ts r i = some s →
      ∃ d ∈ demotionsOf o policy contents r l ts, d.origin = i := by
    intro i s hs
    obtain ⟨w, t, hmem, hfind, hexp, -⟩ := severityAt_eq_some_iff.mp hs
    obtain ⟨ht, hkey⟩ := (Todo.find?_eq_some_iff hnodup).mp hfind
    have hin : (errorKeys o r).contains t.key = true := by
      rw [hkey]
      exact contains_keyOf_of_mem_firstErrors hmem
    have hcovers : (scopeOf o policy r).covers t = true := covers_of_concerns (hown t ht hin)
    exact ⟨_, mem_demotionsOf.mpr ⟨t, ht, hcovers, hexp, w, i, hmem, hkey.symm, rfl⟩, rfl⟩
  apply List.ext_getElem?
  intro i
  rw [Changes.getElem?_foldl_demoteAt (severityAt o l ts r) hsets hset, List.getElem?_mapIdx]
  refine Option.map_congr fun d hd => ?_
  rw [severityAt, hd]
  rfl

/-- The abandoned todos are those of the engine, among those that the result is for, with keys of no
error. -/
theorem abandoned_eq (ts : List Todo) :
    abandoned (candidatesOf o policy contents r) (scopeOf o policy r) ts =
      ts.filter fun t => covers o r t && t.engine == o.engine && !(errorKeys o r).contains t.key := by
  rw [abandoned, List.filter_filter]
  refine List.filter_congr fun t _ => ?_
  rw [covers_scopeOf, contains_candidatesOf, Bool.and_comm, Bool.and_assoc]
  rfl

/-- Once the errors of a file are written, no todo is abandoned. -/
theorem abandoned_written {live : Batch} (hupdating : o.updating = true) :
    abandoned (candidatesOf o policy contents r) (scopeOf o policy r)
      (written o policy l live contents r) = [] := by
  rw [← toList_applyAll_candidatesOf hupdating]
  exact FileLedger.abandoned_applyAll_writeEntries l _ _ live

end Severities

/-! ## One file -/

/-- What the work on one file leaves: the live todos that it does not drop and the new ones that have not
expired, if todos are cleaned up; the demotions that the todos ask for which are live once its errors are
written; and the reports of those that are not reproduced, when they are not removed. -/
structure Worked (o : RunOptions) (policy : DecayPolicy) (l : FileLedger) (live : Batch)
    (contents : Option String) (r : LintResult) (after : Batch) (changes : Changes) : Prop where
  left : after.toList = live.toList.filter (!drops o l r ·) ++
    (newTodos o policy l live contents r).filter fun t => !(o.cleaning && l.isExpired t)
  demotions : changes.demotions =
    demotionsOf o policy contents r l (written o policy l live contents r)
  violations : changes.violations = if o.updating || o.cleaning then [] else
    (live.toList.filter fun t => covers o r t && t.engine == o.engine &&
      !(errorKeys o r).contains t.key).map fun t => ⟨t.filePath, t.violation⟩

section File

variable {o : RunOptions} {policy : DecayPolicy} {r : LintResult} {l l' l₁ : FileLedger}
  {live after : Batch} {contents : Option String} {changes : Changes}
  {read : FileLedger → String → Option String} {step : FileStep}

/-- A write adds as many todos as it makes of the errors of the file. -/
theorem length_fresh (hupdating : o.updating = true) :
    (FileLedger.fresh (candidatesOf o policy contents r) live).length =
      (newTodos o policy l live contents r).length := by
  rw [FileLedger.fresh, candidatesOf, Batch.toList_ofList, Candidates.firsts_ofWarnings, List.filter_map,
    List.length_map, newTodos, if_pos hupdating, List.length_map]
  rfl

/-- The work on one file with a source counts the todos that it makes as added. -/
theorem added_of_reconcile (hsource : r.sourcePath.isEmpty = false) (h : l.currentLive = .ok live)
    (hy : Yields (reconcile o policy read r) l step l') :
    step.added = (newTodos o policy l live (read l r.sourcePath) r).length := by
  obtain ⟨summary, l₁, hwrite, hsettle⟩ := (yields_reconcile hsource).mp hy
  have hsummary : step.added = summary.added := by
    rcases yields_settleIf.mp hsettle with ⟨-, -, rfl⟩ | ⟨-, settled, -, rfl⟩ <;> rfl
  rw [hsummary]
  unfold writeIf at hwrite
  split at hwrite
  · next hupdating =>
    obtain ⟨found, hfound, -, rfl⟩ := FileLedger.yields_write.mp (yields_onLedger.mp hwrite)
    obtain rfl := Except.ok.inj (hfound.symm.trans h)
    exact length_fresh hupdating
  · next hkeeps =>
    obtain ⟨rfl, -⟩ := yields_pure.mp hwrite
    rw [newTodos, if_neg hkeeps]
    rfl

/-- What is settled once the errors of a file are written is the work on the file. -/
theorem Settled.worked (htoday : l₁.today = l.today)
    (h : Settled o (candidatesOf o policy contents r) (scopeOf o policy r) l₁
      (written o policy l live contents r) after.toList changes) :
    Worked o policy l live contents r after changes where
  left := by
    rw [h.left, ← filter_written, FileLedger.isExpired_congr htoday]
    refine List.filter_congr fun t _ => ?_
    rw [contains_candidatesOf, covers_scopeOf]
    rfl
  demotions := by
    rw [h.demotions, FileLedger.isExpired_congr htoday, demotionOf_congr htoday, demotionsOf]
  violations := by
    rw [h.violations]
    cases hupdating : o.updating with
    | true =>
      rw [abandoned_written hupdating, Bool.true_or, if_pos rfl]
      exact ite_self _
    | false => rw [abandoned_eq, written, hupdating, if_neg Bool.false_ne_true, Bool.false_or]

/-- The work on one file with a source, when the live todos can be read.  Without a log afterwards nothing
has happened. -/
theorem worked_reconcile (hsource : r.sourcePath.isEmpty = false) (h : l.currentLive = .ok live)
    (hy : Yields (reconcile o policy read r) l step l') :
    ∃ live', l'.currentLive = .ok live' ∧
      ((l.files.isFile l.storagePath = false ∧ live' = live ∧ step.changes = {} ∧
          written o policy l live (read l r.sourcePath) r = live.toList) ∨
        l'.files.isFile l'.storagePath = true ∧
          Worked o policy l live (read l r.sourcePath) r live' step.changes) := by
  obtain ⟨summary, l₁, hwrite, hsettle⟩ := (yields_reconcile hsource).mp hy
  obtain ⟨live₁, hcurrent₁, hlist₁, hunlogged⟩ := live_writeIf h hwrite
  have htoday : l₁.today = l.today :=
    (ends_writeIf (FileLedger.invariant_today l.today) rfl o _ _).of_yields hwrite
  rcases live_settleIf hcurrent₁ hsettle with
    ⟨hnolog, rfl, hchanges⟩ | ⟨hlogged, live', hcurrent, hsettled⟩
  · obtain ⟨rfl, hbefore⟩ := hunlogged hnolog
    exact ⟨live₁, hcurrent₁, Or.inl ⟨hbefore, rfl, hchanges, hlist₁.symm⟩⟩
  · rw [hlist₁] at hsettled
    exact ⟨live', hcurrent, Or.inr ⟨hlogged, hsettled.worked htoday⟩⟩

/-- The work on one file with a source, on a ledger that has no live todos without a log. -/
theorem shows_worked (h : l.Shows live) (hsource : r.sourcePath.isEmpty = false)
    (hy : Yields (reconcile o policy read r) l step l') :
    ∃ live', l'.Shows live' ∧ Worked o policy l live (read l r.sourcePath) r live' step.changes := by
  obtain ⟨live', hcurrent, ⟨hnolog, rfl, hchanges, hwritten⟩ | ⟨hlogged, hworked⟩⟩ :=
    worked_reconcile hsource h.current hy
  · refine ⟨live', ⟨hcurrent, fun _ => h.unlogged hnolog⟩, ?_⟩
    -- there is nothing live that could be settled
    have hsettled : Settled o (candidatesOf o policy (read l r.sourcePath) r) (scopeOf o policy r) l
        (written o policy l live' (read l r.sourcePath) r) live'.toList step.changes := by
      rw [hwritten, h.unlogged hnolog, hchanges]
      exact ⟨rfl, rfl, (ite_self _).symm⟩
    exact hsettled.worked rfl
  · refine ⟨live', ⟨hcurrent, fun hnolog => ?_⟩, hworked⟩
    exact absurd (hlogged.symm.trans hnolog) (by decide)

/-- The severities that a file asks for are set in results for it. -/
theorem Worked.filePath_of_mem_demotions (h : Worked o policy l live contents r after changes)
    (hpath : r.path o.baseDir ≠ "") : ∀ d ∈ changes.demotions, d.filePath = r.path o.baseDir := by
  intro d hd
  rw [h.demotions] at hd
  obtain ⟨t, -, hcovers, -, w, place, -, -, rfl⟩ := mem_demotionsOf.mp hd
  rw [covers_scopeOf, covers_of_path hpath] at hcovers
  exact beq_iff_eq.mp hcovers

/-- The reports that a file asks for are added to results for it. -/
theorem Worked.filePath_of_mem_violations (h : Worked o policy l live contents r after changes)
    (hpath : r.path o.baseDir ≠ "") : ∀ v ∈ changes.violations, v.filePath = r.path o.baseDir := by
  intro v hv
  rw [h.violations] at hv
  split at hv
  · cases hv
  · obtain ⟨t, ht, rfl⟩ := List.mem_map.mp hv
    have htest := (Bool.and_eq_true_iff.mp (List.mem_filter.mp ht).2).1
    have hcovers := (Bool.and_eq_true_iff.mp htest).1
    rw [covers_of_path hpath] at hcovers
    exact beq_iff_eq.mp hcovers

/-- The diagnostics that are added stand for the todos of the file that no error reproduces. -/
theorem Worked.map_diagnostic (h : Worked o policy l live contents r after changes)
    (hpath : r.path o.baseDir ≠ "") : changes.violations.map Violation.diagnostic =
      Run.violations o (written o policy l live contents r) r := by
  rw [h.violations]
  unfold Run.violations
  split
  · rfl
  · next hkeeps =>
    have hupdating : o.updating = false := by
      cases hupdating : o.updating with
      | true => exact absurd (by rw [hupdating]; rfl) hkeeps
      | false => rfl
    rw [List.map_map, written, hupdating, if_neg Bool.false_ne_true]
    refine congrArg (List.map _) (List.filter_congr fun t _ => ?_)
    rw [concerns_of_path hpath, Bool.and_comm (covers o r t)]

/-- The work on one file leaves the live todos that outlast it and the new ones that have not expired, if
todos are cleaned up; and it changes the one result for the file as its todos say. -/
theorem shows_reconcile (h : l.Shows live) (hpath : r.path o.baseDir ≠ "")
    (hown : ∀ t ∈ live.toList, (errorKeys o r).contains t.key = true → concerns o r t = true)
    (hy : Yields (reconcile o policy read r) l step l') :
    (∃ live' : Batch, l'.Shows live' ∧ live'.toList = live.toList.filter (outlasts o l r) ++
      (newTodos o policy l live (read l r.sourcePath) r).filter
        fun t => !(o.cleaning && l.isExpired t)) ∧
    ∀ results : List LintResult, ∀ i, results[i]? = some r →
      (results.map (LintResult.path o.baseDir)).Nodup →
        (step.changes.apply o.baseDir results).results =
          results.set i (heldAgainst o l (written o policy l live (read l r.sourcePath) r) r) := by
  obtain ⟨live', hshows, hworked⟩ := shows_worked h (LintResult.sourcePath_isEmpty hpath) hy
  constructor
  · refine ⟨live', hshows, hworked.left.trans (congrArg (· ++ _) ?_)⟩
    refine List.filter_congr fun t ht => ?_
    rw [drops_eq_not_outlasts hpath (hown t ht), Bool.not_not]
  · intro results i hi hpaths
    rw [Changes.results_apply hi hpaths (hworked.filePath_of_mem_demotions hpath)
        (hworked.filePath_of_mem_violations hpath),
      hworked.demotions, hworked.map_diagnostic hpath,
      foldl_demotionsOf nodup_keys_written (concerns_of_mem_written hown)]
    rfl

end File

end LintDebt.Run
