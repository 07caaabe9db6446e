import LintDebt.Proofs.Ledger.Operations

/-!
# How the live todos are sorted

The live todos of a scope fall apart into those that the candidates reproduce, which have expired or not, and
those that they do not.

* `LintDebt.FileLedger.severityCode_eq_error_iff`: the code of a todo is that of an error exactly when it has
  expired.
* `LintDebt.FileLedger.map_filter_reproduced`: what the reproduced todos share with the live ones.
* `LintDebt.FileLedger.stored_sortOut`, `LintDebt.FileLedger.keys_sortOut`: the todos of the three batches.
* `LintDebt.FileLedger.disjoint_sortOut`: no key is in two of them.
* `LintDebt.FileLedger.sortOut_partitions`: which todos are sorted where.
-/

namespace LintDebt.FileLedger

variable {l l' : FileLedger} {live candidates : Batch} {scope : Scope} {batches : Batches}

/-- A todo weighs as an error exactly when its error date has come. -/
theorem severityCode_eq_error_iff {t : Todo} :
    Ledger.severityCode l t = Severity.error.code ↔ l.isExpired t = true := by
  show (l.severity t).code = Severity.error.code ↔ _
  unfold severity
  split
  · next hexpired => exact iff_of_true rfl hexpired
  · next hexpired =>
    refine iff_of_false ?_ hexpired
    split <;> decide

/-- Of the reproduced todos, all that does not depend on their origins and windows is that of the live todos
of the scope whose keys the candidates contain. -/
theorem map_filter_reproduced {α : Type} (scope : Scope) (f : Todo → α) (p : Todo → Bool)
    (hf : ∀ t u, matched candidates t = some u → f u = f t)
    (hp : ∀ t u, matched candidates t = some u → p u = p t) (ts : List Todo) :
    ((reproduced candidates scope ts).filter p).map f =
      (ts.filter fun t => scope.covers t && candidates.contains t.key && p t).map f := by
  unfold reproduced
  induction ts with
  | nil => rfl
  | cons t rest ih =>
    by_cases hcovers : scope.covers t = true
    · rw [List.filter_cons_of_pos hcovers]
      cases hmatch : matched candidates t with
      | none =>
        have hin := matched_eq_none_iff.mp hmatch
        rw [List.filterMap_cons_none hmatch, ih, List.filter_cons_of_neg (by simp [hin])]
      | some u =>
        have hin := contains_of_matched hmatch
        rw [List.filterMap_cons_some hmatch]
        by_cases htest : p t = true
        · rw [List.filter_cons_of_pos ((hp t u hmatch).trans htest), List.map_cons, ih,
            List.filter_cons_of_pos (by simp [hcovers, hin, htest]), List.map_cons, hf t u hmatch]
        · rw [List.filter_cons_of_neg (by rw [hp t u hmatch]; exact htest), ih,
            List.filter_cons_of_neg (by simp [htest])]
    · rw [List.filter_cons_of_neg hcovers, ih, List.filter_cons_of_neg (by simp [hcovers])]

/-! ## The three batches -/

/-- The keys of live todos that pass one test and of those that pass another are different, if none passes
both. -/
theorem disjoint_keys_filter {p q : Todo → Bool} (hpq : ∀ t, p t = true → q t = false) :
    ((live.toList.filter p).map Todo.key).Disjoint ((live.toList.filter q).map Todo.key) := by
  intro key hkeyp hkeyq
  obtain ⟨t, ht, rfl⟩ := List.mem_map.mp hkeyp
  obtain ⟨u, hu, hsame⟩ := List.mem_map.mp hkeyq
  obtain ⟨htlive, htp⟩ := List.mem_filter.mp ht
  obtain ⟨hulive, huq⟩ := List.mem_filter.mp hu
  rw [Batch.eq_of_key_eq hulive htlive hsame, hpq t htp] at huq
  cases huq

/-- A batch with the keys of the live todos that pass a test contains the key of a live todo exactly when this
one passes. -/
theorem contains_of_keys {b : Batch} {p : Todo → Bool}
    (hb : b.keys = (live.toList.filter p).map Todo.key) {t : Todo} (ht : t ∈ live.toList) :
    b.contains t.key = p t := by
  rw [Batch.contains, hb, Batch.contains_keys_filter ht]

section Sorted

variable (h : l.currentLive = .ok live) (hy : Yields (sortOut candidates scope) l batches l')
include h hy

/-- The todos of the batches as they are stored, and those that no candidate reproduces as they are. -/
theorem stored_sortOut :
    batches.expired.toList.map Todo.stored = (live.toList.filter fun t => scope.covers t &&
        candidates.contains t.key && l.isExpired t).map Todo.stored ∧
      batches.stable.toList.map Todo.stored = (live.toList.filter fun t => scope.covers t &&
        candidates.contains t.key && !l.isExpired t).map Todo.stored ∧
      batches.remove.toList = live.toList.filter fun t => scope.covers t &&
        (scope.owns t && !candidates.contains t.key) := by
  obtain ⟨-, hstable, hexpired, hremove⟩ := toList_sortOut h hy
  -- origins and windows are not stored and move no date
  have hstored (t u : Todo) (hmatch : matched candidates t = some u) : u.stored = t.stored := by
    obtain ⟨c, -, rfl⟩ := Option.map_eq_some_iff.mp hmatch
    rfl
  have hdate (t u : Todo) (hmatch : matched candidates t = some u) : l.isExpired u = l.isExpired t := by
    obtain ⟨c, -, rfl⟩ := Option.map_eq_some_iff.mp hmatch
    rfl
  refine ⟨?_, ?_, ?_⟩
  · rw [hexpired]
    exact map_filter_reproduced scope Todo.stored l.isExpired hstored hdate live.toList
  · rw [hstable]
    exact map_filter_reproduced scope Todo.stored (!l.isExpired ·) hstored
      (fun t u hmatch => congrArg (!·) (hdate t u hmatch)) live.toList
  · rw [hremove, abandoned, List.filter_filter]
    exact List.filter_congr fun t _ => Bool.and_comm _ _

/-- The keys of the batches. -/
theorem keys_sortOut :
    batches.expired.keys = (live.toList.filter fun t => scope.covers t &&
        candidates.contains t.key && l.isExpired t).map Todo.key ∧
      batches.stable.keys = (live.toList.filter fun t => scope.covers t &&
        candidates.contains t.key && !l.isExpired t).map Todo.key ∧
      batches.remove.keys = (live.toList.filter fun t => scope.covers t &&
        (scope.owns t && !candidates.contains t.key)).map Todo.key := by
  obtain ⟨hexpired, hstable, hremove⟩ := stored_sortOut h hy
  have hkeys (ts : List Todo) : ts.map Todo.key = (ts.map Todo.stored).map Todo.key := by
    rw [List.map_map]
    rfl
  rw [Batch.keys_eq, Batch.keys_eq, Batch.keys_eq, hremove, hkeys, hexpired, ← hkeys,
    hkeys batches.stable.toList, hstable, ← hkeys]
  exact ⟨rfl, rfl, rfl⟩

/-- No key is in two of the batches. -/
theorem disjoint_sortOut : batches.expired.keys.Disjoint batches.stable.keys ∧
    batches.expired.keys.Disjoint batches.remove.keys ∧
      batches.stable.keys.Disjoint batches.remove.keys := by
  obtain ⟨hexpired, hstable, hremove⟩ := keys_sortOut h hy
  rw [hexpired, hstable, hremove]
  refine ⟨disjoint_keys_filter fun t ht => ?_, disjoint_keys_filter fun t ht => ?_,
    disjoint_keys_filter fun t ht => ?_⟩
  · rw [(Bool.and_eq_true_iff.mp ht).2, Bool.not_true, Bool.and_false]
  · rw [(Bool.and_eq_true_iff.mp (Bool.and_eq_true_iff.mp ht).1).2, Bool.not_true, Bool.and_false,
      Bool.and_false]
  · rw [(Bool.and_eq_true_iff.mp (Bool.and_eq_true_iff.mp ht).1).2, Bool.not_true, Bool.and_false,
      Bool.and_false]

end Sorted

/-- The live todos are not sorted when they cannot be read. -/
theorem run_sortOut_of_error {e : LedgerError} (h : l.currentLive = .error e) (candidates : Batch)
    (scope : Scope) : (sortOut candidates scope).run.run l = (.error e, l) := by
  have hlive : liveTodos.run.run l = (.error e, l) := by
    unfold liveTodos
    show (LedgerM.ofExcept l.currentLive >>= _ : LedgerM FileLedger Batch).run.run l = _
    rw [h]
    rfl
  unfold sortOut
  rw [run_bind_eq, hlive]

/-- Sorting fails without a change when the live todos cannot be read, and otherwise answers three batches
and leaves the storage and the live todos as they are.  A live todo of the scope is in `expired` when a
candidate has its key and its severity has the code of an error, in `stable` when a candidate has its key and
the code is another, and in `remove` when no candidate has its key and it belongs to the engine of the scope.
No key is in two of the batches, and each batch consists of these todos alone, all of them, in their order and
with the fields that are stored. -/
theorem sortOut_partitions (l : FileLedger) (candidates : Batch) (scope : Scope) :
    (∀ e, l.currentLive = .error e → (sortOut candidates scope).run.run l = (.error e, l)) ∧
    ∀ live, l.currentLive = .ok live → ∃ batches l',
      Yields (sortOut candidates scope) l batches l' ∧
      l'.files = l.files ∧ l'.currentLive = .ok live ∧
      (∀ t ∈ live.toList, scope.covers t = true →
        (batches.expired.contains t.key = true ↔
          candidates.contains t.key = true ∧ Ledger.severityCode l t = Severity.error.code) ∧
        (batches.stable.contains t.key = true ↔
          candidates.contains t.key = true ∧ Ledger.severityCode l t ≠ Severity.error.code) ∧
        (batches.remove.contains t.key = true ↔
          candidates.contains t.key = false ∧ t.engine = scope.engine)) ∧
      batches.expired.keys.Disjoint batches.stable.keys ∧
      batches.expired.keys.Disjoint batches.remove.keys ∧
      batches.stable.keys.Disjoint batches.remove.keys ∧
      batches.expired.toList.map Todo.stored = (live.toList.filter fun t => scope.covers t &&
        candidates.contains t.key &&
          decide (Ledger.severityCode l t = Severity.error.code)).map Todo.stored ∧
      batches.stable.toList.map Todo.stored = (live.toList.filter fun t => scope.covers t &&
        candidates.contains t.key &&
          !decide (Ledger.severityCode l t = Severity.error.code)).map Todo.stored ∧
      batches.remove.toList = live.toList.filter fun t => scope.covers t &&
        (scope.owns t && !candidates.contains t.key) := by
  refine ⟨fun e he => run_sortOut_of_error he candidates scope, fun live hlive => ?_⟩
  obtain ⟨batches, hy⟩ := exists_yields_sortOut hlive candidates scope
  obtain ⟨hexpired, hstable, hremove⟩ := keys_sortOut hlive hy
  obtain ⟨hstable', hremove', hother⟩ := disjoint_sortOut hlive hy
  have hcode (t : Todo) : decide (Ledger.severityCode l t = Severity.error.code) = l.isExpired t := by
    rw [Bool.eq_iff_iff, decide_eq_true_iff, severityCode_eq_error_iff]
  simp only [hcode]
  refine ⟨batches, _, hy, rfl, rfl, fun t ht hcovers => ⟨?_, ?_, ?_⟩, hstable', hremove', hother,
    stored_sortOut hlive hy⟩
  · rw [contains_of_keys hexpired ht, hcovers, Bool.true_and, Bool.and_eq_true_iff,
      severityCode_eq_error_iff]
  · rw [contains_of_keys hstable ht, hcovers, Bool.true_and, Bool.and_eq_true_iff, Ne,
      severityCode_eq_error_iff, Bool.not_eq_true', Bool.not_eq_true]
  · rw [contains_of_keys hremove ht, hcovers, Bool.true_and, Bool.and_eq_true_iff, Bool.not_eq_true',
      Scope.owns, beq_iff_eq, and_comm]

/-- Live todos of which one has expired, another is of a rule without candidates, and a third is of another
file. -/
def exampleSorting : FileLedger where
  files := exampleFiles
  baseDir := ""
  today := exampleDay
  cache := some (.ofList [{ exampleTodo with errorDate := some exampleDay },
    { exampleTodo with ruleId := "font" }, { exampleTodo with filePath := "b.css" }])

/-- The first of them is sorted out as expired, the second as gone, and the third is left alone. -/
theorem sortOut_partitions_of_example :
    ∃ batches l', Yields (sortOut (.ofList [exampleTodo]) ⟨"stylelint", "a.css", {}⟩)
        exampleSorting batches l' ∧
      batches.expired.toList.map Todo.stored =
        [{ exampleTodo with errorDate := some exampleDay, origin := none }] ∧
      batches.stable.toList.map Todo.stored = [] ∧
      batches.remove.toList = [{ exampleTodo with ruleId := "font" }] := by
  obtain ⟨batches, l', hy, -, -, -, -, -, -, hexpired, hstable, hremove⟩ :=
    (sortOut_partitions exampleSorting (.ofList [exampleTodo]) ⟨"stylelint", "a.css", {}⟩).2 _ rfl
  refine ⟨batches, l', hy, ?_⟩
  rw [hexpired, hstable, hremove]
  decide +kernel

end LintDebt.FileLedger
