import LintDebt.Proofs.Run.File

/-!
# All files of a run

A run works on its files one after the other.  When the files are different and keys tell todos apart,
no file touches the todos of another, and the run is described file by file from the live todos at its
start.

* `LintDebt.Run.FilesApart`: the results are for different files, and keys tell the todos apart.
* `LintDebt.Run.ledgerBefore`: the ledger when the work on a file starts.
* `LintDebt.Run.shows_files`: what the work on the first files leaves.
-/

namespace LintDebt.Run

open Candidates (keyOf firstErrors)

/-- The results are for different files, all with a path, and among the live todos and the errors
different identities have different keys. -/
structure FilesApart (o : RunOptions) (results : List LintResult) (live : Batch) : Prop where
  paths : ∀ r ∈ results, r.path o.baseDir ≠ ""
  nodup_paths : (results.map (LintResult.path o.baseDir)).Nodup
  distinguishable : Todo.Distinguishable (live.toList ++ results.flatMap (errorsOf o))

/-- The ledger when the work on a file starts. -/
def ledgerBefore (o : RunOptions) (policy : DecayPolicy) (read : FileLedger → String → Option String)
    (results : List LintResult) (l : FileLedger) (i : Nat) : FileLedger :=
  (((List.range i).foldlM (advance o policy read) ({ results } : Progress)).run.run l).2

/-- The ledger when the work on a file starts is what the work on the files before it leaves. -/
theorem ledgerBefore_eq {o : RunOptions} {policy : DecayPolicy} {read : FileLedger → String → Option String}
    {results : List LintResult} {l l₁ : FileLedger} {i : Nat} {q : Progress}
    (hfirst : Yields ((List.range i).foldlM (advance o policy read) { results }) l q l₁) :
    ledgerBefore o policy read results l i = l₁ := by
  unfold ledgerBefore
  rw [show ((List.range i).foldlM (advance o policy read) ({ results } : Progress)).run.run l =
    (.ok q, l₁) from hfirst]

/-- The todos that an update writes for a file, with the source as it is read when the work on the file
starts. -/
def addedFor (o : RunOptions) (policy : DecayPolicy) (read : FileLedger → String → Option String)
    (results : List LintResult) (l : FileLedger) (live : Batch) (i : Nat) (r : LintResult) :
    List Todo :=
  newTodos o policy l live (read (ledgerBefore o policy read results l i) r.sourcePath) r

section Apart

variable {o : RunOptions} {policy : DecayPolicy} {read : FileLedger → String → Option String}
  {results : List LintResult} {l : FileLedger} {live : Batch} {contents : Option String}
  {r s : LintResult} {t : Todo}

/-- A live todo with the key of an error of a file is one of the file. -/
theorem FilesApart.concerns_of_mem (h : FilesApart o results live) (hr : r ∈ results)
    (ht : t ∈ live.toList) (hkey : (errorKeys o r).contains t.key = true) :
    concerns o r t = true := by
  obtain ⟨e, he, hsame⟩ := List.mem_map.mp (List.contains_iff_mem.mp hkey)
  have hidentity := h.distinguishable t (List.mem_append_left _ ht) e
    (List.mem_append_right _ (List.mem_flatMap.mpr ⟨r, hr, he⟩)) hsame.symm
  obtain ⟨d, -, rfl⟩ := List.mem_map.mp he
  unfold concerns
  rw [hidentity.engine, hidentity.filePath]
  simp [Candidates.identity]

/-- Two results with errors of one key are for one file. -/
theorem FilesApart.path_eq (h : FilesApart o results live) (hr : r ∈ results) (hs : s ∈ results)
    {key : String} (hkr : (errorKeys o r).contains key = true)
    (hks : (errorKeys o s).contains key = true) : r.path o.baseDir = s.path o.baseDir := by
  obtain ⟨e, he, rfl⟩ := List.mem_map.mp (List.contains_iff_mem.mp hkr)
  obtain ⟨f, hf, hsame⟩ := List.mem_map.mp (List.contains_iff_mem.mp hks)
  have hidentity := h.distinguishable e
    (List.mem_append_right _ (List.mem_flatMap.mpr ⟨r, hr, he⟩)) f
    (List.mem_append_right _ (List.mem_flatMap.mpr ⟨s, hs, hf⟩)) hsame.symm
  obtain ⟨d, -, rfl⟩ := List.mem_map.mp he
  obtain ⟨d', -, rfl⟩ := List.mem_map.mp hf
  exact hidentity.filePath

/-- A todo of one file does not concern a result for another. -/
theorem concerns_eq_false (hpath : s.path o.baseDir ≠ r.path o.baseDir)
    (ht : concerns o s t = true) : concerns o r t = false := by
  have hfile : t.filePath = s.path o.baseDir :=
    beq_iff_eq.mp (Bool.and_eq_true_iff.mp ht).2
  rw [concerns, hfile, Bool.and_eq_false_iff]
  exact Or.inr (beq_eq_false_iff_ne.mpr hpath)

/-- A todo that does not concern a file outlasts it. -/
theorem outlasts_of_not_concerns (ht : concerns o r t = false) : outlasts o l r t = true := by
  rw [outlasts, ht]
  rfl

end Apart

/-! ## Lists -/

/-- What is made of the values at their places, in one step. -/
theorem map_mapIdx {α β γ : Type} (f : Nat → α → β) (g : β → γ) (xs : List α) :
    (xs.mapIdx f).map g = xs.mapIdx fun i x => g (f i x) := by
  apply List.ext_getElem?
  intro i
  rw [List.getElem?_map, List.getElem?_mapIdx, List.getElem?_mapIdx, Option.map_map]
  rfl

/-- A part that keeps all that is looked for has the same first hit. -/
theorem find?_filter_of_imp {α : Type} {p q : α → Bool} {xs : List α}
    (h : ∀ x ∈ xs, q x = true → p x = true) : (xs.filter p).find? q = xs.find? q := by
  rw [List.find?_filter]
  induction xs with
  | nil => rfl
  | cons x xs ih =>
    rw [List.find?_cons, List.find?_cons, ih fun y hy => h y (List.mem_cons_of_mem x hy)]
    cases hq : q x with
    | false => simp
    | true => simp [h x List.mem_cons_self hq]

/-! ## The first files -/

section First

variable (o : RunOptions) (policy : DecayPolicy) (read : FileLedger → String → Option String)
  (results : List LintResult) (l : FileLedger) (live : Batch)

/-- The todos written for the first files that have not expired, if todos are cleaned up. -/
def addedByFirst (n : Nat) : List Todo :=
  ((results.take n).mapIdx fun i r =>
    (addedFor o policy read results l live i r).filter
      fun t => !(o.cleaning && l.isExpired t)).flatten

/-- The live todos after the work on the first files. -/
def liveAfterFirst (n : Nat) : List Todo :=
  live.toList.filter (fun t => (results.take n).all (outlasts o l · t)) ++
    addedByFirst o policy read results l live n

/-- The results after the work on the first files. -/
def resultsAfterFirst (n : Nat) : List LintResult :=
  (results.take n).mapIdx (fun i r =>
    heldAgainst o l (live.toList ++ addedFor o policy read results l live i r) r) ++ results.drop n

variable {o policy read results l live} {n : Nat} {r : LintResult}

/-- One more file adds its todos. -/
theorem addedByFirst_succ (hr : results[n]? = some r) :
    addedByFirst o policy read results l live (n + 1) =
      addedByFirst o policy read results l live n ++
        (addedFor o policy read results l live n r).filter
          fun t => !(o.cleaning && l.isExpired t) := by
  obtain ⟨hlt, rfl⟩ := List.getElem?_eq_some_iff.mp hr
  have hlength : (results.take n).length = n := List.length_take_of_le (Nat.le_of_lt hlt)
  unfold addedByFirst
  rw [List.take_succ_eq_append_getElem hlt, List.mapIdx_concat, List.flatten_append,
    List.flatten_singleton, hlength]

/-- A todo that was written for the first files is one of them. -/
theorem mem_addedByFirst {t : Todo} (ht : t ∈ addedByFirst o policy read results l live n) :
    ∃ s ∈ results.take n, concerns o s t = true ∧ (errorKeys o s).contains t.key = true := by
  obtain ⟨added, hadded, hin⟩ := List.mem_flatten.mp ht
  obtain ⟨i, hi, rfl⟩ := List.mem_mapIdx.mp hadded
  exact ⟨_, List.getElem_mem hi, mem_newTodos (List.mem_filter.mp hin).1⟩

/-- Of results for different files, those before another have other paths. -/
theorem path_ne_of_mem_take (hnodup : (results.map (LintResult.path o.baseDir)).Nodup)
    (hr : results[n]? = some r) {s : LintResult} (hs : s ∈ results.take n) :
    s.path o.baseDir ≠ r.path o.baseDir := by
  obtain ⟨hlt, rfl⟩ := List.getElem?_eq_some_iff.mp hr
  rw [← List.take_append_drop n results, List.map_append, List.nodup_append] at hnodup
  refine hnodup.2.2 _ (List.mem_map_of_mem hs) _ (List.mem_map_of_mem ?_)
  rw [List.drop_eq_getElem_cons hlt]
  exact List.mem_cons_self

/-- Files before another have other paths. -/
theorem FilesApart.path_ne (h : FilesApart o results live) (hr : results[n]? = some r)
    {s : LintResult} (hs : s ∈ results.take n) : s.path o.baseDir ≠ r.path o.baseDir :=
  path_ne_of_mem_take h.nodup_paths hr hs

/-- A live todo of a file outlasts the files before it. -/
theorem FilesApart.outlasts_first (h : FilesApart o results live) (hr : results[n]? = some r)
    {t : Todo} (ht : concerns o r t = true) :
    (results.take n).all (outlasts o l · t) = true := by
  rw [List.all_eq_true]
  intro s hs
  exact outlasts_of_not_concerns (concerns_eq_false (h.path_ne hr hs).symm ht)

/-- Nothing that was written for the first files has the key of an error of another file. -/
theorem FilesApart.key_not_added (h : FilesApart o results live) (hr : results[n]? = some r)
    {t : Todo} (ht : t ∈ addedByFirst o policy read results l live n) :
    (errorKeys o r).contains t.key = false := by
  obtain ⟨s, hs, -, hkey⟩ := mem_addedByFirst ht
  rw [← Bool.not_eq_true]
  intro hin
  exact h.path_ne hr hs
    (h.path_eq (List.mem_of_mem_take hs) (List.mem_of_getElem? hr) hkey hin)

/-- The keys of a file's errors name the same todos when the work on the file starts as when the run
starts. -/
theorem FilesApart.find?_liveAfterFirst (h : FilesApart o results live)
    (hr : results[n]? = some r) {key : String} (hkey : (errorKeys o r).contains key = true) :
    (liveAfterFirst o policy read results l live n).find? (·.key == key) =
      live.toList.find? (·.key == key) := by
  have hnone : (addedByFirst o policy read results l live n).find? (·.key == key) = none := by
    rw [List.find?_eq_none]
    intro t ht hsame
    have hother := h.key_not_added hr ht
    rw [beq_iff_eq.mp hsame, hkey] at hother
    cases hother
  rw [liveAfterFirst, List.find?_append, hnone, Option.or_none]
  refine find?_filter_of_imp fun t ht hsame => ?_
  refine h.outlasts_first hr (h.concerns_of_mem (List.mem_of_getElem? hr) ht ?_)
  rw [beq_iff_eq.mp hsame]
  exact hkey

/-- When the work on a file starts, the live todos with the key of one of its errors are those of the
file. -/
theorem FilesApart.concerns_of_mem_first (h : FilesApart o results live)
    (hr : results[n]? = some r) {t : Todo}
    (ht : t ∈ liveAfterFirst o policy read results l live n)
    (hkey : (errorKeys o r).contains t.key = true) : concerns o r t = true := by
  rcases List.mem_append.mp ht with hlive | hadded
  · exact h.concerns_of_mem (List.mem_of_getElem? hr) (List.mem_filter.mp hlive).1 hkey
  · have hother := h.key_not_added hr hadded
    rw [hkey] at hother
    cases hother

/-- When the work on a file starts, its live todos are those that it had when the run started. -/
theorem FilesApart.filter_concerns_first (h : FilesApart o results live)
    (hr : results[n]? = some r) (p : Todo → Bool) :
    (liveAfterFirst o policy read results l live n).filter (fun t => concerns o r t && p t) =
      live.toList.filter fun t => concerns o r t && p t := by
  have hnone : (addedByFirst o policy read results l live n).filter
      (fun t => concerns o r t && p t) = [] := by
    refine List.filter_eq_nil_iff.mpr fun t ht => ?_
    obtain ⟨s, hs, hconcerns, -⟩ := mem_addedByFirst ht
    rw [concerns_eq_false (h.path_ne hr hs) hconcerns, Bool.false_and]
    exact Bool.false_ne_true
  rw [liveAfterFirst, List.filter_append, hnone, List.append_nil, List.filter_filter]
  refine List.filter_congr fun t _ => ?_
  cases hconcerns : concerns o r t with
  | false => rfl
  | true => rw [h.outlasts_first hr hconcerns, Bool.and_true]

/-- The work on one more file, as a step from the live todos before it. -/
theorem FilesApart.liveAfterFirst_succ (h : FilesApart o results live)
    (hr : results[n]? = some r) :
    liveAfterFirst o policy read results l live (n + 1) =
      (liveAfterFirst o policy read results l live n).filter (outlasts o l r) ++
        (addedFor o policy read results l live n r).filter
          fun t => !(o.cleaning && l.isExpired t) := by
  have hkeep : (addedByFirst o policy read results l live n).filter (outlasts o l r) =
      addedByFirst o policy read results l live n := by
    refine List.filter_eq_self.mpr fun t ht => ?_
    obtain ⟨s, hs, hconcerns, -⟩ := mem_addedByFirst ht
    exact outlasts_of_not_concerns (concerns_eq_false (h.path_ne hr hs) hconcerns)
  obtain ⟨hlt, hget⟩ := List.getElem?_eq_some_iff.mp hr
  rw [liveAfterFirst, liveAfterFirst, addedByFirst_succ hr, List.filter_append, hkeep,
    List.filter_filter, List.append_assoc, List.take_succ_eq_append_getElem hlt, hget]
  congr 1
  refine List.filter_congr fun t _ => ?_
  rw [List.all_append, List.all_cons, List.all_nil, Bool.and_true, Bool.and_comm]

/-! ## One more file -/

/-- The keys of a file's errors are live when the work on the file starts if they were so when the run
started. -/
theorem FilesApart.contains_first (h : FilesApart o results live) (hr : results[n]? = some r)
    {b : Batch} (hb : b.toList = liveAfterFirst o policy read results l live n) {key : String}
    (hkey : (errorKeys o r).contains key = true) : b.contains key = live.contains key := by
  have hfind : (liveAfterFirst o policy read results l live n).find? (·.key == key) =
      live.toList.find? (·.key == key) := h.find?_liveAfterFirst hr hkey
  rw [Batch.contains_eq_isSome_find?, Batch.contains_eq_isSome_find?, hb, hfind]

/-- An update writes for a file what it would have written at the start of the run. -/
theorem FilesApart.newTodos_first (h : FilesApart o results live) (hr : results[n]? = some r)
    {b : Batch} (hb : b.toList = liveAfterFirst o policy read results l live n)
    {l₁ : FileLedger} (htoday : l₁.today = l.today) (contents : Option String) :
    newTodos o policy l₁ b contents r = newTodos o policy l live contents r := by
  have hafter : l₁.after = l.after := by
    funext days
    rw [FileLedger.after, FileLedger.after, htoday]
  have hnew : newTodo o policy l₁ contents r = newTodo o policy l contents r := by
    funext d
    simp only [newTodo, hafter, htoday]
  unfold newTodos
  rw [hnew]
  split
  · refine congrArg (List.map _) (List.filter_congr fun first hmem => ?_)
    obtain ⟨d, place⟩ := first
    exact congrArg not (h.contains_first hr hb (contains_keyOf_of_mem_firstErrors hmem))
  · rfl

/-- Once the errors of a file are written, its keys name the todos that were live when the run started
and those that were written for it. -/
theorem FilesApart.find?_written (h : FilesApart o results live) (hr : results[n]? = some r)
    {b : Batch} (hb : b.toList = liveAfterFirst o policy read results l live n)
    {l₁ : FileLedger} (htoday : l₁.today = l.today) (contents : Option String) {key : String}
    (hkey : (errorKeys o r).contains key = true) :
    (written o policy l₁ b contents r).find? (·.key == key) =
      (live.toList ++ newTodos o policy l live contents r).find? (·.key == key) := by
  have hold : (liveAfterFirst o policy read results l live n).find? (·.key == key) =
      live.toList.find? (·.key == key) := h.find?_liveAfterFirst hr hkey
  unfold written
  rw [h.newTodos_first hr hb htoday, hb]
  cases hupdating : o.updating with
  | true =>
    rw [if_pos rfl, List.find?_append, List.find?_append, ← hold]
    congr 1
    refine find?_filter_of_imp fun t _ hsame => ?_
    rw [beq_iff_eq.mp hsame, hkey, Bool.not_true, Bool.and_false]
    rfl
  | false =>
    have hnone : newTodos o policy l live contents r = [] := by
      rw [newTodos, hupdating, if_neg Bool.false_ne_true]
    rw [if_neg Bool.false_ne_true, hnone, List.append_nil, hold]

/-- The todos that are reported at the time of their file are those that would have been reported when the run
started. -/
theorem FilesApart.violations_written (h : FilesApart o results live) (hr : results[n]? = some r)
    {b : Batch} (hb : b.toList = liveAfterFirst o policy read results l live n) {l₁ : FileLedger}
    {contents : Option String} : violations o (written o policy l₁ b contents r) r =
      violations o (live.toList ++ newTodos o policy l live contents r) r := by
  unfold violations written newTodos
  cases hupdating : o.updating with
  | true => rfl
  | false =>
    rw [if_neg Bool.false_ne_true, if_neg Bool.false_ne_true, List.append_nil, hb,
      h.filter_concerns_first hr]

/-- Held against the todos at the time of its file, a result becomes the same as when it is held against
those that were live when the run started and those that were written for it. -/
theorem FilesApart.heldAgainst_written (h : FilesApart o results live)
    (hr : results[n]? = some r) {b : Batch}
    (hb : b.toList = liveAfterFirst o policy read results l live n) {l₁ : FileLedger}
    (htoday : l₁.today = l.today) (contents : Option String) :
    heldAgainst o l₁ (written o policy l₁ b contents r) r =
      heldAgainst o l (live.toList ++ newTodos o policy l live contents r) r := by
  have hwarnings : r.warnings.mapIdx (fun i d =>
      d.demoted (newSeverity? o l₁ (written o policy l₁ b contents r) r i d)) =
        r.warnings.mapIdx fun i d => d.demoted
          (newSeverity? o l (live.toList ++ newTodos o policy l live contents r) r i d) := by
    apply List.ext_getElem?
    intro i
    rw [List.getElem?_mapIdx, List.getElem?_mapIdx]
    refine Option.map_congr fun d hd => congrArg d.demoted ?_
    unfold newSeverity?
    split
    · next hfirst =>
      have hkey := contains_keyOf_of_mem_firstErrors (Candidates.mem_firstErrors.mpr ⟨hd, hfirst⟩)
      rw [h.find?_written hr hb htoday contents hkey, FileLedger.isExpired_congr htoday,
        FileLedger.hasCome_congr htoday]
    · rfl
  rw [heldAgainst, heldAgainst, hwarnings, h.violations_written hr hb]

/-- The results that are left when the work on a file starts begin with its result. -/
theorem getElem?_resultsAfterFirst (hr : results[n]? = some r) :
    (resultsAfterFirst o policy read results l live n)[n]? = some r := by
  obtain ⟨hlt, rfl⟩ := List.getElem?_eq_some_iff.mp hr
  unfold resultsAfterFirst
  rw [List.getElem?_append_right (by
      rw [List.length_mapIdx]
      exact List.length_take_le n results),
    List.length_mapIdx, List.length_take_of_le (Nat.le_of_lt hlt), Nat.sub_self,
    List.getElem?_drop, Nat.add_zero, List.getElem?_eq_getElem hlt]

/-- The work on files leaves their paths. -/
theorem map_path_resultsAfterFirst :
    (resultsAfterFirst o policy read results l live n).map (LintResult.path o.baseDir) =
      results.map (LintResult.path o.baseDir) := by
  unfold resultsAfterFirst
  conv_rhs => rw [← List.take_append_drop n results]
  rw [List.map_append, List.map_append, map_mapIdx]
  congr 1
  apply List.ext_getElem?
  intro i
  rw [List.getElem?_mapIdx, List.getElem?_map]
  rfl

/-- The result of one more file is put in its place. -/
theorem set_resultsAfterFirst (hr : results[n]? = some r) :
    (resultsAfterFirst o policy read results l live n).set n
        (heldAgainst o l (live.toList ++ addedFor o policy read results l live n r) r) =
      resultsAfterFirst o policy read results l live (n + 1) := by
  obtain ⟨hlt, rfl⟩ := List.getElem?_eq_some_iff.mp hr
  have hlength : (results.take n).length = n := List.length_take_of_le (Nat.le_of_lt hlt)
  unfold resultsAfterFirst
  rw [List.take_succ_eq_append_getElem hlt, List.mapIdx_concat, hlength,
    List.drop_eq_getElem_cons hlt,
    List.set_append_right _ _ (by
      rw [List.length_mapIdx]
      exact List.length_take_le n results),
    List.length_mapIdx, hlength, Nat.sub_self, List.set_cons_zero, List.append_assoc,
    List.singleton_append]

end First

/-! ## The loop -/

/-- The work on the first files leaves the live todos and the results that are told file by file. -/
theorem shows_files {o : RunOptions} {policy : DecayPolicy}
    {read : FileLedger → String → Option String} {results : List LintResult} {l l' : FileLedger}
    {live : Batch} (h : l.Shows live) (hapart : FilesApart o results live) {n : Nat}
    (hn : n ≤ results.length) {p : Progress}
    (hy : Yields ((List.range n).foldlM (advance o policy read) { results }) l p l') :
    l'.today = l.today ∧
      (∃ live', l'.Shows live' ∧
        live'.toList = liveAfterFirst o policy read results l live n) ∧
      p.results = resultsAfterFirst o policy read results l live n := by
  induction n generalizing p l' with
  | zero =>
    obtain ⟨rfl, rfl⟩ := yields_pure.mp hy
    refine ⟨rfl, ⟨live, h, ?_⟩, ?_⟩
    · simp [liveAfterFirst, addedByFirst]
    · simp [resultsAfterFirst]
  | succ n ih =>
    obtain ⟨q, l₁, hfirst, hlast⟩ := yields_foldlM_range_succ.mp hy
    obtain ⟨htoday, ⟨live₁, hshows, hlist⟩, hresults⟩ := ih (Nat.le_of_succ_le hn) hfirst
    have hr : results[n]? = some results[n] := List.getElem?_eq_getElem hn
    generalize results[n] = r at hr
    have hbefore := ledgerBefore_eq hfirst
    have hturn : q.results[n]? = some r := by
      rw [hresults]
      exact getElem?_resultsAfterFirst hr
    obtain ⟨step, hstep, rfl⟩ := (yields_advance_of_getElem? hturn).mp hlast
    have htoday' : l'.today = l₁.today :=
      (ends_reconcile (FileLedger.invariant_today l₁.today) rfl o policy read r).of_yields hstep
    have hown : ∀ t ∈ live₁.toList, (errorKeys o r).contains t.key = true →
        concerns o r t = true := by
      rw [hlist]
      exact fun t ht => hapart.concerns_of_mem_first hr ht
    obtain ⟨⟨live', hshows', hlist'⟩, happly⟩ :=
      shows_reconcile hshows (hapart.paths r (List.mem_of_getElem? hr)) hown hstep
    refine ⟨htoday'.trans htoday, ⟨live', hshows', ?_⟩, ?_⟩
    · rw [hlist', hlist, hapart.liveAfterFirst_succ hr, hapart.newTodos_first hr hlist htoday,
        FileLedger.isExpired_congr htoday, addedFor, hbefore]
      congr 1
      refine List.filter_congr fun t _ => ?_
      rw [outlasts, outlasts, FileLedger.isExpired_congr htoday]
    · show (step.changes.apply o.baseDir q.results).results = _
      rw [hresults, happly _ n (getElem?_resultsAfterFirst hr), ← set_resultsAfterFirst hr,
        hapart.heldAgainst_written hr hlist htoday, addedFor, hbefore]
      rw [map_path_resultsAfterFirst]
      exact hapart.nodup_paths

end LintDebt.Run
