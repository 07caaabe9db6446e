import LintDebt.Proofs.Ledger.Coherence

/-!
# What the operations of a ledger do

Each operation is described on the list of live todos alone: what it answers and what the list is
afterwards.

* `LintDebt.FileLedger.Shows`: the live todos that a ledger answers, which lie in its log.
* `LintDebt.FileLedger.yields_write`: the entries that a write appends.
* `LintDebt.FileLedger.cached_write`: the live todos after a write.
* `LintDebt.FileLedger.abandoned_applyAll_writeEntries`: a write leaves no todo that its candidates abandon.
* `LintDebt.FileLedger.toList_sortOut`: how the live todos are sorted.
* `LintDebt.FileLedger.contains_swept`: which of them are sorted out.
* `LintDebt.FileLedger.cached_exchange`: the live todos after a removal.
-/

namespace LintDebt.FileLedger

variable {l l' : FileLedger} {live : Batch}

/-- The ledger has these live todos; without a log there are none. -/
structure Shows (l : FileLedger) (live : Batch) : Prop where
  current : l.currentLive = .ok live
  unlogged : l.files.isFile l.storagePath = false → live.toList = []

/-- The live todos that a log holds are those of a ledger that remembers nothing else. -/
theorem Reads.shows (h : l.Reads live) (hcache : ∀ b ∈ l.cache, b = live) : l.Shows live where
  current := by
    unfold currentLive
    cases hb : l.cache with
    | none => exact h
    | some b => rw [hcache b hb]
  unlogged hfile := by
    unfold Reads at h
    rw [readEntries_of_isFile_eq_false hfile] at h
    cases h
    rfl

/-! ## What stays -/

/-- The day of a ledger never changes by itself. -/
theorem invariant_today (today : Date) : Invariant fun l => l.today = today where
  remember h _ := h
  append h _ := h
  rewrite h _ _ := h

/-- A log that is there stays there. -/
theorem invariant_logged : Invariant fun l => l.files.isFile l.storagePath = true where
  remember h _ := h
  append {l files entries} _ happend := by
    show files.isFile l.storagePath = true
    rw [FileTree.isFile, FileTree.contents?_append? happend]
    rfl
  rewrite {l files entries} _ _ hwrite := by
    show files.isFile l.storagePath = true
    rw [FileTree.isFile, FileTree.contents?_write? hwrite]
    rfl

/-- On the same day a todo gets the same dates. -/
theorem date_congr (h : l'.today = l.today) : l'.date = l.date := by
  funext policy t
  unfold date after
  rw [h]

/-- On the same day the same dates have come. -/
theorem hasCome_congr (h : l'.today = l.today) : l'.hasCome = l.hasCome := by
  funext date
  unfold hasCome
  rw [h]

/-- On the same day the same todos have expired. -/
theorem isExpired_congr (h : l'.today = l.today) : l'.isExpired = l.isExpired := by
  funext t
  unfold isExpired
  rw [hasCome_congr h]

/-- On the same day a todo has the same severity. -/
theorem severity_congr (h : l'.today = l.today) : l'.severity = l.severity := by
  funext t
  unfold severity
  rw [isExpired_congr h, hasCome_congr h]

/-- The dates of a todo do not belong to its key. -/
@[simp] theorem key_date (policy : Option DecayPolicy) (t : Todo) :
    (l.date policy t).key = t.key := by
  unfold date
  split <;> rfl

/-- The dates of a todo leave its engine. -/
@[simp] theorem engine_date (policy : Option DecayPolicy) (t : Todo) :
    (l.date policy t).engine = t.engine := by
  unfold date
  split <;> rfl

/-! ## Writing -/

/-- A ledger that remembers its live todos remembers what appended entries make of them; and there is a log
then, unless nothing was appended. -/
theorem cached_append (h : l.cache = some live) {entries : List LogEntry}
    (hy : Yields (append entries) l () l') :
    l'.cache = some (live.applyAll entries) ∧
      (l'.files.isFile l'.storagePath = false → entries = [] ∧ l' = l) := by
  rw [yields_append] at hy
  split at hy
  · next hnil =>
    subst hnil hy
    exact ⟨h, fun _ => ⟨rfl, rfl⟩⟩
  · obtain ⟨files, hfiles, rfl⟩ := hy
    refine ⟨?_, fun hfile => ?_⟩
    · show l.cache.map _ = _
      rw [h]
      rfl
    · have hlogged : files.isFile l.storagePath = true := by
        rw [FileTree.isFile, FileTree.contents?_append? hfiles]
        rfl
      exact absurd (hlogged.symm.trans hfile) (by decide)

/-- The candidates that a write adds: those whose keys are not live. -/
def fresh (candidates live : Batch) : List Todo :=
  candidates.toList.filter fun c => !live.contains c.key

/-- The live todos that a write takes out: those of the scope and its engine that no candidate
reproduces. -/
def stale (candidates : Batch) (scope : Scope) (live : Batch) : List Todo :=
  live.toList.filter fun t => scope.covers t && scope.owns t && !candidates.contains t.key

/-- The todos that a write adds, with their dates. -/
def datedFresh (l : FileLedger) (candidates : Batch) (scope : Scope) (live : Batch) : List Todo :=
  (fresh candidates live).map (l.date (some scope.policy))

/-- The entries that a write appends. -/
def writeEntries (l : FileLedger) (candidates : Batch) (scope : Scope) (live : Batch) :
    List LogEntry :=
  (l.datedFresh candidates scope live).map (⟨.add, ·⟩) ++
    (stale candidates scope live).map (⟨.remove, ·⟩)

/-- A write, step by step. -/
theorem write_eq (candidates : Batch) (scope : Scope) :
    write candidates scope = liveTodos >>= fun live => get >>= fun l =>
      append (l.writeEntries candidates scope live) >>= fun _ =>
        pure ⟨(fresh candidates live).length, (stale candidates scope live).length⟩ := by
  unfold write
  refine congrArg _ (funext fun live => congrArg _ (funext fun l => ?_))
  have hentries : (candidates.filterEntries fun c => !live.contains c.key).toList.map
      (fun t => (⟨.add, l.date (some scope.policy) t⟩ : LogEntry)) =
        (l.datedFresh candidates scope live).map (⟨.add, ·⟩) := by
    rw [datedFresh, Batch.toList_filterEntries, List.map_map]
    rfl
  dsimp only
  rw [hentries, Batch.toList_filterEntries, Batch.toList_filterEntries]
  rfl

/-- A write asks for the live todos, and appends what it adds and what it takes out. -/
theorem yields_write {candidates : Batch} {scope : Scope} {summary : WriteSummary} :
    Yields (write candidates scope) l summary l' ↔
      ∃ live, l.currentLive = .ok live ∧
        Yields (append (l.writeEntries candidates scope live)) (l.remembering live) () l' ∧
        summary = ⟨(fresh candidates live).length, (stale candidates scope live).length⟩ := by
  have hentries (live : Batch) : (l.remembering live).writeEntries candidates scope live =
      l.writeEntries candidates scope live := by
    have hdate : (l.remembering live).date = l.date := date_congr rfl
    rw [writeEntries, writeEntries, datedFresh, datedFresh, hdate]
  rw [write_eq, yields_bind]
  constructor
  · rintro ⟨live, s, hlive, hrest⟩
    obtain ⟨hcurrent, rfl⟩ := yields_liveTodos.mp hlive
    rw [yields_get_bind, hentries] at hrest
    obtain ⟨u, s', happend, hpure⟩ := yields_bind.mp hrest
    obtain ⟨rfl, rfl⟩ := yields_pure.mp hpure
    exact ⟨live, hcurrent, happend, rfl⟩
  · rintro ⟨live, hcurrent, happend, rfl⟩
    refine ⟨live, _, yields_liveTodos.mpr ⟨hcurrent, rfl⟩, ?_⟩
    rw [yields_get_bind, hentries]
    exact yields_bind.mpr ⟨(), l', happend, yields_pure.mpr ⟨rfl, rfl⟩⟩

/-- A todo that a write adds has the key of its candidate. -/
theorem keys_datedFresh (l : FileLedger) (candidates : Batch) (scope : Scope) (live : Batch) :
    (l.datedFresh candidates scope live).map Todo.key = (fresh candidates live).map Todo.key := by
  rw [datedFresh, List.map_map]
  exact List.map_congr_left fun t _ => key_date _ t

/-- The todos that a write adds have different keys. -/
theorem nodup_keys_datedFresh (l : FileLedger) (candidates : Batch) (scope : Scope) (live : Batch) :
    ((l.datedFresh candidates scope live).map Todo.key).Nodup := by
  rw [keys_datedFresh]
  exact candidates.nodup_keys_toList.sublist (List.filter_sublist.map _)

/-- The todos that a write adds have new keys. -/
theorem contains_datedFresh {candidates : Batch} {scope : Scope} :
    ∀ t ∈ l.datedFresh candidates scope live, live.contains t.key = false := by
  intro t ht
  obtain ⟨c, hc, rfl⟩ := List.mem_map.mp ht
  rw [key_date]
  exact (Bool.not_eq_true' _).mp (List.mem_filter.mp hc).2

/-- The live todos that a write leaves: those of the scope that no candidate reproduces are taken out, and
the candidates with new keys stand at the end, with their dates. -/
theorem toList_applyAll_writeEntries (l : FileLedger) (candidates : Batch) (scope : Scope)
    (live : Batch) :
    (live.applyAll (l.writeEntries candidates scope live)).toList =
      live.toList.filter
          (fun t => !(scope.covers t && scope.owns t && !candidates.contains t.key)) ++
        (candidates.toList.filter fun c => !live.contains c.key).map
          fun c => (l.date (some scope.policy) c).stored := by
  refine (Batch.toList_applyAll_exchange (l.nodup_keys_datedFresh candidates scope live)
    contains_datedFresh _).trans ?_
  rw [datedFresh, List.map_map]
  rfl

/-- A write leaves a ledger that remembers its live todos; and there is a log then, unless the write has
changed nothing. -/
theorem cached_write (h : l.currentLive = .ok live) {candidates : Batch} {scope : Scope}
    {summary : WriteSummary} (hy : Yields (write candidates scope) l summary l') :
    l'.cache = some (live.applyAll (l.writeEntries candidates scope live)) ∧
      (l'.files.isFile l'.storagePath = false →
        l.writeEntries candidates scope live = [] ∧ l' = l.remembering live) := by
  obtain ⟨found, hcurrent, happend, -⟩ := yields_write.mp hy
  obtain rfl := Except.ok.inj (hcurrent.symm.trans h)
  exact cached_append rfl happend

/-! ## Sorting -/

/-- A live todo as its candidate reproduces it, if one does. -/
def matched (candidates : Batch) (t : Todo) : Option Todo :=
  (candidates.get? t.key).map fun c => { t with origin := c.origin, decay := c.decay }

/-- A reproduced todo keeps its key. -/
theorem key_of_matched {candidates : Batch} {t u : Todo} (h : matched candidates t = some u) :
    u.key = t.key := by
  obtain ⟨c, -, rfl⟩ := Option.map_eq_some_iff.mp h
  rfl

/-- A todo is reproduced when the candidates contain its key. -/
theorem matched_eq_none_iff {candidates : Batch} {t : Todo} :
    matched candidates t = none ↔ candidates.contains t.key = false := by
  rw [matched, Option.map_eq_none_iff, Batch.get?_eq_find?, ← Bool.not_eq_true,
    Batch.contains_iff, List.find?_eq_none, List.mem_map]
  constructor
  · rintro h ⟨c, hc, hkey⟩
    exact h c hc (by simpa using hkey)
  · intro h c hc hkey
    exact h ⟨c, hc, by simpa using hkey⟩

/-- A todo is not reproduced when the candidates do not contain its key. -/
theorem isNone_matched (candidates : Batch) (t : Todo) :
    (matched candidates t).isNone = !candidates.contains t.key := by
  rw [Bool.eq_iff_iff, Option.isNone_iff_eq_none, matched_eq_none_iff, Bool.not_eq_true']

/-- The candidates contain the key of a reproduced todo. -/
theorem contains_of_matched {candidates : Batch} {t u : Todo} (h : matched candidates t = some u) :
    candidates.contains t.key = true := by
  rw [← Bool.not_eq_false, ← matched_eq_none_iff, h]
  exact Option.some_ne_none u

/-- Sorting puts a todo where its candidate says. -/
theorem sortOne_of (l : FileLedger) (candidates : Batch) (scope : Scope) (b : Batches) (t : Todo) :
    l.sortOne candidates scope b (.of t) = b.put (matched candidates) l.isExpired scope.owns t := by
  unfold sortOne Batches.put matched
  rw [show (Keyed.of t).key = t.key from rfl]
  cases candidates.get? t.key <;> rfl

/-- The todos of a scope that the candidates reproduce. -/
def reproduced (candidates : Batch) (scope : Scope) (live : List Todo) : List Todo :=
  (live.filter scope.covers).filterMap (matched candidates)

/-- A reproduced todo is a todo of the scope with the origin and the window of its candidate. -/
theorem mem_reproduced {candidates : Batch} {scope : Scope} {live : List Todo} {u : Todo} :
    u ∈ reproduced candidates scope live ↔
      ∃ t ∈ live, scope.covers t = true ∧ matched candidates t = some u := by
  rw [reproduced, List.mem_filterMap]
  constructor
  · rintro ⟨t, ht, hmatch⟩
    obtain ⟨hmem, hcovers⟩ := List.mem_filter.mp ht
    exact ⟨t, hmem, hcovers, hmatch⟩
  · rintro ⟨t, hmem, hcovers, hmatch⟩
    exact ⟨t, List.mem_filter.mpr ⟨hmem, hcovers⟩, hmatch⟩

/-- The todos of a scope and its engine that no candidate reproduces. -/
def abandoned (candidates : Batch) (scope : Scope) (live : List Todo) : List Todo :=
  (live.filter scope.covers).filter fun t => scope.owns t && !candidates.contains t.key

/-- Once candidates are written, no todo is abandoned by them. -/
theorem abandoned_applyAll_writeEntries (l : FileLedger) (candidates : Batch) (scope : Scope)
    (live : Batch) :
    abandoned candidates scope (live.applyAll (l.writeEntries candidates scope live)).toList = [] := by
  rw [abandoned, List.filter_filter, toList_applyAll_writeEntries, List.filter_eq_nil_iff]
  intro t ht
  rcases List.mem_append.mp ht with hold | hnew
  · have hkept := (List.mem_filter.mp hold).2
    rw [Bool.not_eq_true', ← Bool.not_eq_true, Bool.and_assoc] at hkept
    rwa [Bool.and_comm]
  · obtain ⟨c, hc, rfl⟩ := List.mem_map.mp hnew
    have hin : candidates.contains c.key = true :=
      Batch.contains_key_of_mem (List.mem_filter.mp hc).1
    rw [Todo.key_stored, key_date, hin, Bool.not_true, Bool.and_false, Bool.false_and]
    exact Bool.false_ne_true

/-- The live todos are sorted only when they can be read. -/
theorem exists_currentLive_of_sortOut {candidates : Batch} {scope : Scope} {batches : Batches}
    (hy : Yields (sortOut candidates scope) l batches l') : ∃ live, l.currentLive = .ok live := by
  obtain ⟨live, s, hlive, -⟩ := yields_bind.mp hy
  exact ⟨live, (yields_liveTodos.mp hlive).1⟩

/-- Sorting the live todos answers those that are reproduced, split by whether they have expired, and
those that are not; all of them in the order in which they were. -/
theorem toList_sortOut (h : l.currentLive = .ok live) {candidates : Batch} {scope : Scope} {batches : Batches}
    (hy : Yields (sortOut candidates scope) l batches l') :
    l' = l.remembering live ∧
      batches.stable.toList = (reproduced candidates scope live.toList).filter (!l.isExpired ·) ∧
      batches.expired.toList = (reproduced candidates scope live.toList).filter l.isExpired ∧
      batches.remove.toList = abandoned candidates scope live.toList := by
  unfold sortOut at hy
  obtain ⟨found, s, hlive, hrest⟩ := yields_bind.mp hy
  obtain ⟨hcurrent, rfl⟩ := yields_liveTodos.mp hlive
  have hfound : found = live := Except.ok.inj (hcurrent.symm.trans h)
  subst hfound
  rw [yields_get_bind] at hrest
  obtain ⟨rfl, rfl⟩ := yields_pure.mp hrest
  have hentries : (found.filter scope.covers).entries =
      (found.toList.filter scope.covers).map Keyed.of := by
    rw [← Batch.toList_filter, Batch.toList, List.map_map]
    exact (List.map_id'' (fun k => Batch.of_todo k) _).symm
  have hnodup := (found.nodup_keys_toList).sublist
    ((List.filter_sublist (p := scope.covers)).map Todo.key)
  have hexpired : (l.remembering found).isExpired = l.isExpired := isExpired_congr rfl
  have hput : (fun b t => (l.remembering found).sortOne candidates scope b (.of t)) =
      Batches.put (matched candidates) l.isExpired scope.owns := by
    funext b t
    rw [sortOne_of, hexpired]
  rw [hentries, List.foldl_map, hput]
  have hkey (t u : Todo) (h : matched candidates t = some u) : u.key = t.key := key_of_matched h
  obtain ⟨hstable, hold, hremove⟩ := Batches.toList_sorted l.isExpired scope.owns hkey hnodup
  refine ⟨rfl, hstable, hold, hremove.trans (List.filter_congr fun t _ => ?_)⟩
  rw [isNone_matched, Bool.and_comm]

/-- The live todos are sorted when they can be read. -/
theorem exists_yields_sortOut (h : l.currentLive = .ok live) (candidates : Batch) (scope : Scope) :
    ∃ batches, Yields (sortOut candidates scope) l batches (l.remembering live) :=
  ⟨_, yields_bind.mpr ⟨live, _, yields_liveTodos.mpr ⟨h, rfl⟩,
    yields_get_bind.mpr (yields_pure.mpr ⟨rfl, rfl⟩)⟩⟩

/-- Of todos with different keys, those of a scope are sorted out that are reproduced and have expired, or
that are not reproduced and belong to the engine of the scope. -/
theorem contains_swept {ts : List Todo} (hnodup : (ts.map Todo.key).Nodup) {candidates : Batch}
    {scope : Scope} {t : Todo} (ht : t ∈ ts) :
    ((abandoned candidates scope ts ++
        (reproduced candidates scope ts).filter l.isExpired).map Todo.key).contains t.key =
      (scope.covers t && if candidates.contains t.key then l.isExpired t else scope.owns t) := by
  have hsame {u : Todo} (hu : u ∈ ts) (hkey : u.key = t.key) : u = t :=
    List.inj_on_of_nodup_map hnodup hu ht hkey
  rw [Bool.eq_iff_iff, List.contains_iff_mem, List.map_append, List.mem_append, Bool.and_eq_true_iff]
  constructor
  · rintro (h | h)
    · obtain ⟨u, hu, hkey⟩ := List.mem_map.mp h
      obtain ⟨hcovered, htest⟩ := List.mem_filter.mp hu
      obtain ⟨hmem, hcovers⟩ := List.mem_filter.mp hcovered
      obtain rfl := hsame hmem hkey
      obtain ⟨howns, hin⟩ := Bool.and_eq_true_iff.mp htest
      rw [Bool.not_eq_true'] at hin
      rw [hin, if_neg Bool.false_ne_true]
      exact ⟨hcovers, howns⟩
    · obtain ⟨u, hu, hkey⟩ := List.mem_map.mp h
      obtain ⟨hreproduced, hexp⟩ := List.mem_filter.mp hu
      obtain ⟨v, hmem, hcovers, hmatch⟩ := mem_reproduced.mp hreproduced
      obtain rfl := hsame hmem ((key_of_matched hmatch).symm.trans hkey)
      have hin := contains_of_matched hmatch
      obtain ⟨c, -, rfl⟩ := Option.map_eq_some_iff.mp hmatch
      rw [hin, if_pos rfl]
      exact ⟨hcovers, hexp⟩
  · rintro ⟨hcovers, htest⟩
    by_cases hin : candidates.contains t.key = true
    · right
      rw [if_pos hin] at htest
      obtain ⟨u, hmatch⟩ : ∃ u, matched candidates t = some u := by
        rw [← Option.ne_none_iff_exists', Ne, matched_eq_none_iff, Bool.not_eq_false]
        exact hin
      refine List.mem_map.mpr ⟨u, List.mem_filter.mpr
        ⟨mem_reproduced.mpr ⟨t, ht, hcovers, hmatch⟩, ?_⟩, key_of_matched hmatch⟩
      obtain ⟨c, -, rfl⟩ := Option.map_eq_some_iff.mp hmatch
      exact htest
    · left
      rw [if_neg hin] at htest
      refine List.mem_map_of_mem (List.mem_filter.mpr
        ⟨List.mem_filter.mpr ⟨ht, hcovers⟩, Bool.and_eq_true_iff.mpr ⟨htest, ?_⟩⟩)
      rw [Bool.not_eq_true', ← Bool.not_eq_true]
      exact hin

/-! ## Exchanging -/

/-- The entries that an exchange appends. -/
def exchangeEntries (l : FileLedger) (add remove : Batch) : List LogEntry :=
  (add.toList.map (l.date none)).map (⟨.add, ·⟩) ++ remove.toList.map (⟨.remove, ·⟩)

/-- An exchange appends what it adds and what it takes out. -/
theorem yields_exchange {add remove : Batch} :
    Yields (exchange add remove) l () l' ↔
      Yields (append (l.exchangeEntries add remove)) l () l' := by
  unfold exchange exchangeEntries
  rw [yields_get_bind, List.map_map]
  rfl

/-- Removing todos takes out all with their keys. -/
theorem cached_exchange (h : l.cache = some live) {remove : Batch}
    (hy : Yields (exchange .empty remove) l () l') :
    ∃ live', l'.cache = some live' ∧
      live'.toList = live.toList.filter fun t => !remove.contains t.key := by
  have happend : Yields (FileLedger.append (remove.toList.map (⟨.remove, ·⟩))) l () l' :=
    yields_exchange.mp hy
  refine ⟨_, (cached_append h happend).1, ?_⟩
  rw [Batch.toList_applyAll_remove]
  refine List.filter_congr fun t _ => ?_
  rw [Batch.contains, Batch.keys_eq]

end LintDebt.FileLedger
