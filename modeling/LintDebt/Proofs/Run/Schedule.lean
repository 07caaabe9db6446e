import LintDebt.Proofs.Ledger.Faithful
import LintDebt.Proofs.Run.Formatter

/-!
# One todo in one run

What a run on different files does with the todo of one key that it reproduces: it writes it with dates
counted from its own day, it leaves it as it is until its error date has come, and it gives the first error
with this key the severity of that day.

* `LintDebt.deadline`, `LintDebt.reached`, `LintDebt.severityOn`: the dates of a todo and what they mean on
  a day.
* `LintDebt.reached_deadline`: a deadline has come when its days have passed.
* `LintDebt.Run.exists_currentLive`: a run on a file answers only when the live todos can be read.
* `LintDebt.Run.shows_of_mem_live`: a reproduced todo outlasts a run until it has expired.
* `LintDebt.Run.shows_of_new`: the todo that an update writes.
* `LintDebt.Run.severityAt?_of_find?`: the severity of the first error with a key.
-/

namespace LintDebt

/-! ## Dates -/

/-- The date some days after another, if the days are set and the date can be represented. -/
def deadline (start : Date) (days : Option UInt32) : Option Date :=
  days.bind fun n => start.addDays? n.toNat

/-- Whether a date has come by a day. -/
def reached (date : Option Date) (today : Date) : Bool :=
  date.any (·.le today)

/-- The severity that a todo with these dates has on a day. -/
def severityOn (today : Date) (warnDate errorDate : Option Date) : Severity :=
  if reached errorDate today then .error
  else if reached warnDate today then .warning
  else .todo

/-- A deadline is reached when so many days have passed; one that cannot be represented never is. -/
theorem reached_deadline (start today : Date) (days : UInt32) :
    reached (deadline start (some days)) today = decide (start.day + days.toNat ≤ today.day) := by
  unfold deadline Date.addDays? Date.ofDay? reached
  rw [Option.bind_some]
  have hfirst := start.inRange.1
  have hlast := today.inRange.2
  split
  · rfl
  · next hrange =>
    symm
    rw [Option.any_none, decide_eq_false_iff_not]
    omega

namespace FileLedger

/-- The dates that have come are those that are reached today. -/
theorem hasCome_eq_reached (l : FileLedger) (date : Option Date) :
    l.hasCome date = reached date l.today := by
  cases date <;> rfl

/-- The severity of a todo is that of its dates today. -/
theorem severity_eq_severityOn (l : FileLedger) (t : Todo) :
    l.severity t = severityOn l.today t.warnDate t.errorDate := by
  unfold severity isExpired severityOn
  rw [l.hasCome_eq_reached, l.hasCome_eq_reached]

end FileLedger

namespace Run

open Candidates (keyOf isFirst firstErrors)

variable {o : RunOptions} {read : FileLedger → String → Option String} {results : List LintResult}
  {l l' : FileLedger} {live : Batch} {out : RunOutcome} {policy : DecayPolicy} {r : LintResult}
  {key : String} {x : Todo}

/-! ## Reading the live todos -/

/-- Without a log there are live todos, though perhaps none. -/
theorem exists_currentLive_of_unlogged (h : l.files.isFile l.storagePath = false) :
    ∃ live, l.currentLive = .ok live := by
  unfold FileLedger.currentLive
  rw [FileLedger.readEntries_of_isFile_eq_false h]
  cases l.cache with
  | none => exact ⟨_, rfl⟩
  | some b => exact ⟨b, rfl⟩

/-- The work on a file with a path answers only when the live todos can be read. -/
theorem exists_currentLive_of_reconcile (hpath : r.path o.baseDir ≠ "") {step : FileStep}
    (hy : Yields (reconcile o policy read r) l step l') : ∃ live, l.currentLive = .ok live := by
  obtain ⟨summary, l₁, hwrite, hsettle⟩ :=
    (yields_reconcile (LintResult.sourcePath_isEmpty hpath)).mp hy
  unfold writeIf at hwrite
  split at hwrite
  · obtain ⟨live, hcurrent, -⟩ := FileLedger.yields_write.mp (yields_onLedger.mp hwrite)
    exact ⟨live, hcurrent⟩
  · obtain ⟨-, rfl⟩ := yields_pure.mp hwrite
    rcases yields_settleIf.mp hsettle with ⟨hunlogged, -, -⟩ | ⟨-, settled, hsettled, -⟩
    · exact exists_currentLive_of_unlogged hunlogged
    · obtain ⟨batches, l₂, u, changes, hsort, -⟩ := yields_settle.mp hsettled
      exact FileLedger.exists_currentLive_of_sortOut hsort

/-- A run on a file with a path answers only when the live todos can be read. -/
theorem exists_currentLive (hcompact : o.compactOnly = false)
    (hpaths : ∀ r ∈ results, r.path o.baseDir ≠ "") (hr : r ∈ results)
    (hy : Yields (formatter o read results) l out l') : ∃ live, l.currentLive = .ok live := by
  obtain ⟨policy, p, -, hfiles, -⟩ := yields_formatter hcompact hy
  cases results with
  | nil => cases hr
  | cons first rest =>
    rw [List.length_cons, List.range_succ_eq_map, List.foldlM_cons] at hfiles
    obtain ⟨q, l₁, hfirst, -⟩ := yields_bind.mp hfiles
    obtain ⟨step, l₂, hstep, -⟩ := yields_bind.mp hfirst
    exact exists_currentLive_of_reconcile (hpaths first List.mem_cons_self) hstep

/-! ## The todo of a key -/

/-- Of the results for different files, at most one has an error with a key. -/
theorem FilesApart.eq_of_key (h : FilesApart o results live) {s : LintResult} (hr : r ∈ results)
    (hs : s ∈ results) (hkr : (errorKeys o r).contains key = true)
    (hks : (errorKeys o s).contains key = true) : r = s :=
  List.inj_on_of_nodup_map h.nodup_paths hr hs (h.path_eq hr hs hkr hks)

/-- A reproduced todo outlasts all files, if it has not expired or todos are not cleaned up. -/
theorem FilesApart.outlasts_all (h : FilesApart o results live) (hx : x ∈ live.toList)
    (hr : r ∈ results) (hkey : (errorKeys o r).contains x.key = true)
    (hexp : o.cleaning = true → l.isExpired x = false) : results.all (outlasts o l · x) = true := by
  have hswept : (o.cleaning && l.isExpired x) = false := by
    cases hcleaning : o.cleaning with
    | false => rfl
    | true => exact hexp hcleaning
  rw [List.all_eq_true]
  intro s hs
  cases hconcerns : concerns o s x with
  | false => exact outlasts_of_not_concerns hconcerns
  | true =>
    have hfile := h.concerns_of_mem hr hx hkey
    have hpath : r.path o.baseDir = s.path o.baseDir := by
      rw [← beq_iff_eq.mp (Bool.and_eq_true_iff.mp hfile).2,
        beq_iff_eq.mp (Bool.and_eq_true_iff.mp hconcerns).2]
    obtain rfl := List.inj_on_of_nodup_map h.nodup_paths hr hs hpath
    rw [outlasts, hkey, if_pos rfl, hswept, Bool.and_false, Bool.not_false]

/-- A run leaves a todo that it reproduces as it is, unless the todo has expired and todos are cleaned up. -/
theorem shows_of_mem_live (hcompact : o.compactOnly = false) (h : l.Shows live)
    (hapart : FilesApart o results live) (hy : Yields (formatter o read results) l out l')
    (hx : x ∈ live.toList) (hr : r ∈ results) (hkey : (errorKeys o r).contains x.key = true)
    (hexp : o.cleaning = true → l.isExpired x = false) : ∃ live', l'.Shows live' ∧ x ∈ live'.toList := by
  obtain ⟨policy, live', -, hshows, hlist, -⟩ := shows_formatter hcompact h hapart hy
  refine ⟨live', hshows, ?_⟩
  rw [hlist, liveAfterFirst, List.take_length]
  exact List.mem_append_left _ (List.mem_filter.mpr ⟨hx, hapart.outlasts_all hx hr hkey hexp⟩)

/-! ## Severities -/

/-- The severity of a diagnostic at a place of a result. -/
def severityAt? (results : List LintResult) (i place : Nat) : Option Severity :=
  (results[i]?.bind (·.warnings[place]?)).map (·.severity)

/-- At this place of this result stands the first error with a key. -/
def FirstAt (o : RunOptions) (results : List LintResult) (key : String) (i place : Nat) : Prop :=
  ∃ r d, results[i]? = some r ∧ r.warnings[place]? = some d ∧
    isFirst o.engine (r.path o.baseDir) r.warnings place d = true ∧
      keyOf o.engine (r.path o.baseDir) d = key

/-- Where a key is that of an error of a result, the first error with this key stands somewhere. -/
theorem exists_firstAt (hr : r ∈ results) (hkey : (errorKeys o r).contains key = true) :
    ∃ i place, FirstAt o results key i place := by
  obtain ⟨i, hi⟩ := List.mem_iff_getElem?.mp hr
  obtain ⟨d, place, hmem, hd⟩ := exists_mem_firstErrors hkey
  obtain ⟨hplace, hfirst⟩ := Candidates.mem_firstErrors.mp hmem
  exact ⟨i, place, r, d, hi, hplace, hfirst, hd⟩

/-- The first error with a key gets the severity of the todo with this key. -/
theorem severity_demoted_of_find? {ts : List Todo} {place : Nat} {d : Diagnostic}
    (hfirst : isFirst o.engine (r.path o.baseDir) r.warnings place d = true)
    (hfind : ts.find? (·.key == keyOf o.engine (r.path o.baseDir) d) = some x) :
    (d.demoted (newSeverity? o l ts r place d)).severity = l.severity x := by
  have herror : d.severity = .error := beq_iff_eq.mp (Bool.and_eq_true_iff.mp hfirst).1
  unfold newSeverity? FileLedger.severity
  rw [if_pos hfirst, hfind]
  cases hexp : l.isExpired x with
  | true => simp [Diagnostic.demoted, hexp, herror]
  | false => simp [Diagnostic.demoted, hexp]

/-- The first error with a key gets the severity of the todo that its result is held against. -/
theorem severityAt?_of_find? {ts : Nat → LintResult → List Todo}
    (hform : out.results = results.mapIdx fun i r => (heldAgainst o l (ts i r) r).settle)
    {i place : Nat} (hat : FirstAt o results key i place)
    (hfind : ∀ r, results[i]? = some r → (errorKeys o r).contains key = true →
      (ts i r).find? (·.key == key) = some x) :
    severityAt? out.results i place = some (l.severity x) := by
  obtain ⟨r, d, hi, hplace, hfirst, rfl⟩ := hat
  have hkey := contains_keyOf_of_mem_firstErrors (Candidates.mem_firstErrors.mpr ⟨hplace, hfirst⟩)
  have hresult : out.results[i]? = some (heldAgainst o l (ts i r) r).settle := by
    rw [hform, List.getElem?_mapIdx, hi]
    rfl
  rw [severityAt?, hresult, Option.bind_some, warnings_settle, getElem?_heldAgainst hplace,
    Option.map_some, severity_demoted_of_find? hfirst (hfind r hi hkey)]

/-- The first error with the key of a live todo gets the severity of that todo. -/
theorem severityAt?_of_mem_live (hcompact : o.compactOnly = false) (h : l.Shows live)
    (hapart : FilesApart o results live) (hy : Yields (formatter o read results) l out l')
    (hx : x ∈ live.toList) {i place : Nat} (hat : FirstAt o results x.key i place) :
    severityAt? out.results i place = some (l.severity x) := by
  obtain ⟨policy, live', -, -, -, hform⟩ := shows_formatter hcompact h hapart hy
  have hfound : live.toList.find? (·.key == x.key) = some x :=
    (Todo.find?_eq_some_iff live.nodup_keys_toList).mpr ⟨hx, rfl⟩
  refine severityAt?_of_find? hform hat fun r _ _ => ?_
  rw [List.find?_append, hfound, Option.some_or]

/-! ## A new todo -/

/-- New todos have different keys. -/
theorem nodup_keys_newTodos (contents : Option String) :
    ((newTodos o policy l live contents r).map Todo.key).Nodup := by
  unfold newTodos
  split
  · have hfirst := Todo.nodup_keys_firsts (Candidates.ofWarnings ⟨o.baseDir, o.engine, policy⟩
      (r.path o.baseDir) contents r.warnings)
    rw [Candidates.firsts_ofWarnings, List.map_map] at hfirst
    rw [List.map_map]
    exact hfirst.sublist (List.filter_sublist.map _)
  · exact List.nodup_nil

/-- The new todo with a key is made from the first error with this key. -/
theorem find?_newTodos (hupdating : o.updating = true) {d : Diagnostic} {place : Nat}
    (hmem : (d, place) ∈ firstErrors o.engine (r.path o.baseDir) r.warnings)
    (hnew : live.contains (keyOf o.engine (r.path o.baseDir) d) = false) (contents : Option String) :
    (newTodos o policy l live contents r).find? (·.key == keyOf o.engine (r.path o.baseDir) d) =
      some (newTodo o policy l contents r d) := by
  refine (Todo.find?_eq_some_iff (nodup_keys_newTodos contents)).mpr ⟨?_, rfl⟩
  unfold newTodos
  rw [if_pos hupdating]
  refine List.mem_map.mpr ⟨(d, place), List.mem_filter.mpr ⟨hmem, ?_⟩, rfl⟩
  exact congrArg not hnew

/-- Errors of a file with one key break one rule. -/
theorem FilesApart.ruleId_eq (h : FilesApart o results live) (hr : r ∈ results) {e : Todo}
    (he : e ∈ errorsOf o r) {d : Diagnostic} {place : Nat}
    (hmem : (d, place) ∈ firstErrors o.engine (r.path o.baseDir) r.warnings)
    (hkey : keyOf o.engine (r.path o.baseDir) d = e.key) : d.ruleId = e.ruleId := by
  obtain ⟨hplace, hfirst⟩ := Candidates.mem_firstErrors.mp hmem
  have herror : d.isError = true := (Bool.and_eq_true_iff.mp hfirst).1
  have hd : Candidates.identity o.engine (r.path o.baseDir) d ∈ errorsOf o r :=
    List.mem_map_of_mem (List.mem_filter.mpr ⟨List.mem_of_getElem? hplace, herror⟩)
  have hin {t : Todo} (ht : t ∈ errorsOf o r) : t ∈ live.toList ++ results.flatMap (errorsOf o) :=
    List.mem_append_right _ (List.mem_flatMap.mpr ⟨r, hr, ht⟩)
  exact (h.distinguishable _ (hin hd) e (hin he) hkey).ruleId

/-- An update writes a todo for a new key with dates counted from its day, gives its severity to the first
error with the key, and leaves it live unless it takes it out at once because it has expired. -/
theorem shows_of_new (hcompact : o.compactOnly = false) (hupdating : o.updating = true)
    (h : l.Shows live) (hapart : FilesApart o results live)
    (hy : Yields (formatter o read results) l out l') (hr : r ∈ results) {e : Todo}
    (he : e ∈ errorsOf o r) (hnew : live.contains e.key = false) :
    ∃ policy x, Config.load l.files l.baseDir o.engine o.overrides = .ok policy ∧ x.key = e.key ∧
      x.createdDate = some l.today ∧
      x.warnDate = deadline l.today ((policy.windowFor e.ruleId).getD {}).warn ∧
      x.errorDate = deadline l.today ((policy.windowFor e.ruleId).getD {}).error ∧
      (∀ i place, FirstAt o results e.key i place →
        severityAt? out.results i place = some (l.severity x)) ∧
      ((o.cleaning = true → l.isExpired x = false) → ∃ live', l'.Shows live' ∧ x ∈ live'.toList) := by
  obtain ⟨policy, live', hload, hshows, hlist, hform⟩ := shows_formatter hcompact h hapart hy
  have hkey : (errorKeys o r).contains e.key = true :=
    List.contains_iff_mem.mpr (List.mem_map_of_mem he)
  obtain ⟨d, place, hmem, hd⟩ := exists_mem_firstErrors hkey
  obtain ⟨i, hi⟩ := List.mem_iff_getElem?.mp hr
  let contents := read (ledgerBefore o policy read results l i) r.sourcePath
  have hrule := hapart.ruleId_eq hr he hmem hd
  have hadded : (addedFor o policy read results l live i r).find? (·.key == e.key) =
      some (newTodo o policy l contents r d) := by
    rw [← hd] at hnew ⊢
    exact find?_newTodos hupdating hmem hnew contents
  refine ⟨policy, newTodo o policy l contents r d, hload, hd, rfl, ?_, ?_, ?_, ?_⟩
  · rw [← hrule]
    rfl
  · rw [← hrule]
    rfl
  · intro j place hat
    refine severityAt?_of_find? hform hat fun s hj hs => ?_
    obtain rfl := hapart.eq_of_key hr (List.mem_of_getElem? hj) hkey hs
    have hlt : i < results.length := (List.getElem?_eq_some_iff.mp hi).1
    obtain rfl : i = j :=
      (List.getElem?_inj hlt (hapart.nodup_paths.of_map _)).mp (hi.trans hj.symm)
    have hnone : live.toList.find? (·.key == e.key) = none := by
      rw [Batch.contains_eq_isSome_find?] at hnew
      exact Option.not_isSome_iff_eq_none.mp (by rw [hnew]; exact Bool.false_ne_true)
    rw [List.find?_append, hnone, Option.none_or, hadded]
  · intro hkept
    refine ⟨live', hshows, ?_⟩
    obtain ⟨hlt, rfl⟩ := List.getElem?_eq_some_iff.mp hi
    rw [hlist, liveAfterFirst, addedByFirst, List.take_length]
    refine List.mem_append_right _ (List.mem_flatten.mpr
      ⟨_, List.mem_mapIdx.mpr ⟨i, hlt, rfl⟩, List.mem_filter.mpr
        ⟨List.mem_of_find?_eq_some hadded, ?_⟩⟩)
    cases hcleaning : o.cleaning with
    | false => rfl
    | true => rw [hkept hcleaning]; rfl

end Run

end LintDebt
