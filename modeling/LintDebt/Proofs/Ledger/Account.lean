import LintDebt.Proofs.Ledger.Compaction
import LintDebt.Proofs.Log.Effective

/-!
# The account of a ledger

A run books what it does: it appends entries to the log, each of which changes the live todos, and it
applies them to the live todos that the ledger has.

* `LintDebt.FileLedger.Books`: a ledger after entries were booked.
* `LintDebt.FileLedger.books_append`: effective entries are booked when they are appended.
* `LintDebt.FileLedger.Booked`: how many additions and removals were booked.
* `LintDebt.FileLedger.booked_write`, `booked_exchange`: what a write and a removal of live todos book.
* `LintDebt.FileLedger.Audited`: a log that can be read, and what it accounts for.
* `LintDebt.FileLedger.Audited.exists_yields_compact`: how much of such a log is dropped.
-/

namespace LintDebt.FileLedger

open LogEntry (Effective count)

variable {l l' l'' : FileLedger} {live : Batch} {entries front back : List LogEntry}

/-- The ledger after entries were booked: they stand behind those of its log, each of them changes the live
todos when it comes, and they are applied to the live todos.  When these could not be read, nothing has
happened. -/
structure Books (l l' : FileLedger) (entries : List LogEntry) : Prop where
  appends : Appends l l' entries
  live : ∀ live, l.currentLive = .ok live →
    Effective live entries ∧ l'.currentLive = .ok (live.applyAll entries)
  unread : ∀ e, l.currentLive = .error e → entries = [] ∧ l' = l

namespace Books

/-- Nothing is booked when nothing happens. -/
theorem refl (l : FileLedger) : Books l l [] :=
  ⟨.refl l, fun live h => ⟨.nil live, h⟩, fun _ _ => ⟨rfl, rfl⟩⟩

/-- Entries are booked one after the other. -/
theorem trans (h : Books l l' front) (h' : Books l' l'' back) : Books l l'' (front ++ back) where
  appends := h.appends.trans h'.appends
  live live hlive := by
    obtain ⟨hfront, hcurrent⟩ := h.live live hlive
    obtain ⟨hback, hcurrent'⟩ := h'.live _ hcurrent
    rw [Batch.applyAll_append]
    exact ⟨hfront.append hback, hcurrent'⟩
  unread e he := by
    obtain ⟨rfl, rfl⟩ := h.unread e he
    exact h'.unread e he

end Books

/-- Nothing is booked when the live todos are asked for. -/
theorem books_remembering (h : l.currentLive = .ok live) : Books l (l.remembering live) [] where
  appends := ⟨rfl, rfl⟩
  live found hfound := by
    rw [h] at hfound
    exact ⟨.nil found, hfound⟩
  unread e he := by
    rw [h] at he
    cases he

/-- Entries that change the live todos are booked when they are appended by a ledger that remembers the
live todos. -/
theorem books_append (hcache : l.cache = some live) (heffective : Effective live entries)
    (hy : Yields (append entries) l () l') : Books l l' entries where
  appends := appends_append hy
  live found hfound := by
    have hcurrent : l.currentLive = .ok live := by rw [currentLive, hcache]
    obtain rfl := Except.ok.inj (hcurrent.symm.trans hfound)
    refine ⟨heffective, ?_⟩
    rw [yields_append] at hy
    split at hy
    · next hnil =>
      subst hnil hy
      exact hcurrent
    · obtain ⟨files, -, rfl⟩ := hy
      rw [currentLive, appended, hcache]
      rfl
  unread e he := by
    rw [currentLive, hcache] at he
    cases he

/-- The entries that a write appends change the live todos: first it adds keys that are not live, then it
removes live ones. -/
theorem effective_writeEntries (l : FileLedger) (candidates : Batch) (scope : Scope) (live : Batch) :
    Effective live (l.writeEntries candidates scope live) := by
  refine (LogEntry.effective_add (l.nodup_keys_datedFresh candidates scope live)
    contains_datedFresh).append (LogEntry.effective_remove ?_ fun t ht => ?_)
  -- What is removed was live before the additions, and these take nothing away.
  · exact live.nodup_keys_toList.sublist (List.filter_sublist.map _)
  · have hold : t.key ∈ live.toList.map Todo.key :=
      List.mem_map_of_mem (List.mem_filter.mp ht).1
    rw [Batch.contains_iff, Batch.toList_applyAll_add (l.nodup_keys_datedFresh candidates scope live)
      contains_datedFresh, List.map_append]
    exact List.mem_append_left _ hold

/-- The ledger booked so many additions and so many removals. -/
def Booked (l l' : FileLedger) (added removed : Nat) : Prop :=
  ∃ entries, Books l l' entries ∧ count .add entries = added ∧ count .remove entries = removed

/-- Nothing is booked when nothing happens. -/
theorem Booked.refl (l : FileLedger) : Booked l l 0 0 :=
  ⟨[], .refl l, rfl, rfl⟩

/-- What is booked one after the other adds up. -/
theorem Booked.trans {added removed added' removed' : Nat} (h : Booked l l' added removed)
    (h' : Booked l' l'' added' removed') : Booked l l'' (added + added') (removed + removed') := by
  obtain ⟨front, hfront, rfl, rfl⟩ := h
  obtain ⟨back, hback, rfl, rfl⟩ := h'
  exact ⟨front ++ back, hfront.trans hback, LogEntry.count_append .add front back,
    LogEntry.count_append .remove front back⟩

/-- What is booked makes the live todos more, or fewer. -/
theorem Booked.size_eq {added removed : Nat} {after : Batch} (h : Booked l l' added removed)
    (hlive : l.currentLive = .ok live) (hafter : l'.currentLive = .ok after) :
    after.size + removed = live.size + added := by
  obtain ⟨entries, hbooks, rfl, rfl⟩ := h
  obtain ⟨heffective, hcurrent⟩ := hbooks.live live hlive
  obtain rfl := Except.ok.inj (hcurrent.symm.trans hafter)
  exact heffective.size_applyAll

/-- A write books what it says. -/
theorem booked_write {candidates : Batch} {scope : Scope} {summary : WriteSummary}
    (hy : Yields (write candidates scope) l summary l') :
    Booked l l' summary.added summary.removed := by
  obtain ⟨live, hcurrent, happend, rfl⟩ := yields_write.mp hy
  have hdated : (l.datedFresh candidates scope live).length = (fresh candidates live).length :=
    List.length_map _
  refine ⟨_, (books_remembering hcurrent).trans (books_append rfl
    (l.effective_writeEntries candidates scope live) happend), ?_, ?_⟩
  · simp [writeEntries, hdated]
  · simp [writeEntries]

/-- A removal of live todos books one entry for each. -/
theorem booked_exchange (hcache : l.cache = some live) {remove : Batch}
    (hlive : ∀ t ∈ remove.toList, live.contains t.key = true)
    (hy : Yields (exchange .empty remove) l () l') : Booked l l' 0 remove.size := by
  have happend : Yields (append (remove.toList.map (⟨.remove, ·⟩))) l () l' := yields_exchange.mp hy
  refine ⟨_, books_append hcache (LogEntry.effective_remove remove.nodup_keys_toList hlive) happend,
    ?_, ?_⟩
  · simp
  · simp [Batch.size_eq]

/-- The todos that are sorted out as expired or as not reproduced are live. -/
theorem contains_of_mem_sorted {candidates : Batch} {scope : Scope} {batches : Batches}
    (hcurrent : l.currentLive = .ok live) (hy : Yields (sortOut candidates scope) l batches l') :
    ∀ t ∈ (batches.remove.union batches.expired).toList, live.contains t.key = true := by
  obtain ⟨-, -, hexpired, hremove⟩ := toList_sortOut hcurrent hy
  intro t ht
  rw [Batch.contains_iff]
  rw [Batch.toList_union, hexpired, hremove, List.mem_append] at ht
  rcases ht with h | h
  · exact List.mem_map_of_mem (List.mem_filter.mp (List.mem_filter.mp h).1).1
  · obtain ⟨u, hu, -, hmatch⟩ := mem_reproduced.mp (List.mem_filter.mp (List.mem_filter.mp h).1).1
    rw [key_of_matched hmatch]
    exact List.mem_map_of_mem hu

/-! ## Whole logs -/

/-- How many live todos a ledger remembers. -/
def sizeRemembered (l : FileLedger) : Nat :=
  l.cache.elim 0 Batch.size

/-- The log can be read and holds these entries; more can be appended to it; and what it holds is a part of the live
todos of the ledger.  No more was added than is live by the log or was removed, and the live todos are no more than
so many that were there before the log, with those that were added and without those that were removed. -/
structure Audited (before : Nat) (l : FileLedger) (entries : List LogEntry) : Prop where
  reads : l.readEntries = .ok entries
  current : ∃ live, l.currentLive = .ok live ∧ (LogEntry.live entries).CoveredBy live ∧
    live.size + count .remove entries ≤ before + count .add entries
  endsWhole : l.EndsWhole
  added_le : count .add entries ≤ (LogEntry.live entries).size + count .remove entries

namespace Audited

variable {before : Nat}

/-- Without a log, nothing was booked. -/
theorem nil (hlog : l.files.contents? l.storagePath = none) : l.Audited l.sizeRemembered [] where
  reads := readEntries_of_none hlog
  current := by
    unfold currentLive sizeRemembered
    cases l.cache with
    | none =>
      rw [readEntries_of_none hlog]
      exact ⟨.empty, rfl, .refl _, Nat.le_refl 0⟩
    | some b => exact ⟨b, rfl, .empty b, Nat.le_refl _⟩
  endsWhole s hs := by
    rw [hlog] at hs
    cases hs
  added_le := Nat.le_refl 0

/-- What is booked stands in the log, as far as it is stored. -/
theorem books (h : Audited before l front) (hbooks : Books l l' back) :
    Audited before l' (front ++ back.map .stored) := by
  obtain ⟨live, hcurrent, hcovered, hsize⟩ := h.current
  obtain ⟨heffective, hcurrent'⟩ := hbooks.live live hcurrent
  obtain ⟨hcovered', hadded⟩ := heffective.coveredBy hcovered
  have hlive := heffective.size_applyAll
  refine ⟨?_, ⟨_, hcurrent', ?_, ?_⟩, hbooks.appends.endsWhole h.endsWhole, ?_⟩
  · rw [hbooks.appends.readEntries_eq h.endsWhole, h.reads]
    rfl
  · rwa [LogEntry.live_append_stored]
  · rw [LogEntry.count_append, LogEntry.count_append, LogEntry.count_map_stored, LogEntry.count_map_stored]
    omega
  · have hbefore := h.added_le
    rw [LogEntry.live_append_stored, LogEntry.count_append, LogEntry.count_append, LogEntry.count_map_stored,
      LogEntry.count_map_stored]
    omega

/-- Writing the log anew drops two entries for each todo that was removed, up to the removals of todos that were
there before the log. -/
theorem exists_yields_compact (h : Audited before l entries) (hdir : l'.baseDir = l.baseDir)
    (hlog : l'.files.contents? l.storagePath = l.files.contents? l.storagePath) :
    ∃ n l'', Yields compact l' n l'' ∧ n ≤ 2 * count .remove entries ∧
      2 * count .remove entries ≤ n + before := by
  have hread : l'.readEntries = .ok entries := (readEntries_congr hdir hlog).trans h.reads
  obtain ⟨l'', hy⟩ := FileLedger.exists_yields_compact hread
  obtain ⟨live, -, hcovered, hsize⟩ := h.current
  have hpart := hcovered.size_le
  have hadded := h.added_le
  have hlength := LogEntry.length_eq_count entries
  exact ⟨_, l'', hy, by omega, by omega⟩

end Audited

end LintDebt.FileLedger
