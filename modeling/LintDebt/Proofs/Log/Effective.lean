import LintDebt.Proofs.Log.Codec
import LintDebt.Proofs.Todo.Batch
import Mathlib.Data.List.Perm.Subperm

/-!
# Entries that change something

An entry is effective when it adds a key that is not live by then, or removes one that is.  Effective
entries account for the number of live todos.

* `LintDebt.LogEntry.Effective`: each entry changes the live todos that those before it leave.
* `LintDebt.LogEntry.effective_add`, `effective_remove`: entries of one kind that are effective.
* `LintDebt.LogEntry.Effective.size_applyAll`: what effective entries make of the number of live todos.
* `LintDebt.Batch.CoveredBy`: a batch all keys of which are in another.
* `LintDebt.LogEntry.Effective.coveredBy`: effective entries add what they say also where some of the live todos
  are missing, and remove no more than they say.
-/

namespace LintDebt

/-! ## Batches that cover others -/

/-- All keys of a batch are keys of another. -/
def Batch.CoveredBy (a b : Batch) : Prop :=
  ∀ key, a.contains key = true → b.contains key = true

namespace Batch.CoveredBy

variable {a b : Batch}

theorem refl (b : Batch) : b.CoveredBy b :=
  fun _ h => h

theorem empty (b : Batch) : CoveredBy .empty b :=
  nofun

/-- A batch has no more todos than one that covers it. -/
theorem size_le (h : a.CoveredBy b) : a.size ≤ b.size := by
  have hsubset : a.toList.map Todo.key ⊆ b.toList.map Todo.key :=
    fun key hkey => contains_iff.mp (h key (contains_iff.mpr hkey))
  have hlength := (List.subperm_of_subset a.nodup_keys_toList hsubset).length_le
  rwa [List.length_map, List.length_map, ← size_eq, ← size_eq] at hlength

theorem insert (h : a.CoveredBy b) (t : Todo) : (a.insert t).CoveredBy (b.insert t) := by
  intro key
  rw [contains_insert, contains_insert, Bool.or_eq_true, Bool.or_eq_true]
  exact Or.imp_left (h key)

theorem erase (h : a.CoveredBy b) (key : String) : (a.erase key).CoveredBy (b.erase key) := by
  intro other
  rw [contains_erase, contains_erase, Bool.and_eq_true, Bool.and_eq_true]
  exact And.imp_left (h other)

end Batch.CoveredBy

/-- Taking out a key takes out one todo at most. -/
theorem Batch.size_le_size_erase (b : Batch) (key : String) : b.size ≤ (b.erase key).size + 1 := by
  cases hkey : b.contains key with
  | true => exact Nat.le_of_eq (size_erase hkey).symm
  | false =>
    have hkept : b.CoveredBy (b.erase key) := by
      intro other hother
      have hne : other ≠ key := fun heq => Bool.eq_false_iff.mp hkey (heq ▸ hother)
      rw [contains_erase, hother, beq_eq_false_iff_ne.mpr hne]
      rfl
    exact Nat.le_succ_of_le hkept.size_le

namespace LogEntry

variable {live : Batch} {entries front back : List LogEntry} {ts : List Todo}

/-! ## Counting -/

/-- How many entries do this. -/
def count (op : LogOp) (entries : List LogEntry) : Nat :=
  entries.countP (·.op == op)

@[simp] theorem count_append (op : LogOp) (front back : List LogEntry) :
    count op (front ++ back) = count op front + count op back :=
  List.countP_append

/-- One more entry that does this. -/
theorem count_cons_self (op : LogOp) (t : Todo) (rest : List LogEntry) :
    count op (⟨op, t⟩ :: rest) = count op rest + 1 :=
  List.countP_cons_of_pos (beq_self_eq_true op)

/-- One more entry that does something else. -/
theorem count_cons_of_ne {op done : LogOp} (h : done ≠ op) (t : Todo) (rest : List LogEntry) :
    count op (⟨done, t⟩ :: rest) = count op rest :=
  List.countP_cons_of_neg fun hdone => h (beq_iff_eq.mp hdone)

/-- Entries that all do the same. -/
@[simp] theorem count_map (op done : LogOp) (ts : List Todo) :
    count op (ts.map (⟨done, ·⟩)) = if done = op then ts.length else 0 := by
  unfold count
  rw [List.countP_map]
  split
  · next h => exact List.countP_eq_length.mpr fun t _ => beq_iff_eq.mpr h
  · next h => exact List.countP_eq_zero.mpr fun t _ hdone => h (beq_iff_eq.mp hdone)

/-- What is never stored does not count. -/
@[simp] theorem count_map_stored (op : LogOp) (entries : List LogEntry) :
    count op (entries.map stored) = count op entries := by
  unfold count
  rw [List.countP_map]
  rfl

/-- Every entry adds or removes. -/
theorem length_eq_count (entries : List LogEntry) :
    entries.length = count .add entries + count .remove entries := by
  unfold count
  induction entries with
  | nil => rfl
  | cons e rest ih =>
    obtain ⟨op, t⟩ := e
    rw [List.length_cons, List.countP_cons, List.countP_cons, ih]
    cases op
    · exact Nat.add_right_comm _ _ _
    · exact Nat.add_assoc _ _ _

/-! ## Effective entries -/

/-- Each entry adds a key that is not live when it comes, or removes one that is. -/
inductive Effective : Batch → List LogEntry → Prop
  | nil (live : Batch) : Effective live []
  | add {live : Batch} {t : Todo} {rest : List LogEntry} : live.contains t.key = false →
    Effective (live.insert t.stored) rest → Effective live (⟨.add, t⟩ :: rest)
  | remove {live : Batch} {t : Todo} {rest : List LogEntry} : live.contains t.key = true →
    Effective (live.erase t.key) rest → Effective live (⟨.remove, t⟩ :: rest)

/-- Entries are effective one after the other. -/
theorem Effective.append (hfront : Effective live front)
    (hback : Effective (live.applyAll front) back) : Effective live (front ++ back) := by
  induction hfront with
  | nil live => exact hback
  | add hnew _ ih => exact .add hnew (ih hback)
  | remove hlive _ ih => exact .remove hlive (ih hback)

/-- Adding todos with different new keys is effective. -/
theorem effective_add (hnodup : (ts.map Todo.key).Nodup)
    (hnew : ∀ t ∈ ts, live.contains t.key = false) : Effective live (ts.map (⟨.add, ·⟩)) := by
  induction ts generalizing live with
  | nil => exact .nil live
  | cons t rest ih =>
    rw [List.map_cons, List.nodup_cons] at hnodup
    refine .add (hnew t List.mem_cons_self) (ih hnodup.2 fun u hu => ?_)
    -- the others stay new, for none of them has the key that is live now
    have hother : u.key ≠ t.key := fun hkey => hnodup.1 (hkey ▸ List.mem_map_of_mem hu)
    rw [Batch.contains_insert, hnew u (List.mem_cons_of_mem t hu), Bool.false_or]
    exact beq_eq_false_iff_ne.mpr hother

/-- Removing todos with different live keys is effective. -/
theorem effective_remove (hnodup : (ts.map Todo.key).Nodup)
    (hlive : ∀ t ∈ ts, live.contains t.key = true) : Effective live (ts.map (⟨.remove, ·⟩)) := by
  induction ts generalizing live with
  | nil => exact .nil live
  | cons t rest ih =>
    rw [List.map_cons, List.nodup_cons] at hnodup
    refine .remove (hlive t List.mem_cons_self) (ih hnodup.2 fun u hu => ?_)
    have hother : u.key ≠ t.key := fun hkey => hnodup.1 (hkey ▸ List.mem_map_of_mem hu)
    rw [Batch.contains_erase, hlive u (List.mem_cons_of_mem t hu), Bool.true_and, Bool.not_eq_true']
    exact beq_eq_false_iff_ne.mpr hother

/-- Effective entries account for the number of live todos. -/
theorem Effective.size_applyAll (h : Effective live entries) :
    (live.applyAll entries).size + count .remove entries = live.size + count .add entries := by
  induction h with
  | nil live => rfl
  | @add live t rest hnew _ ih =>
    have hstep : live.applyAll (⟨.add, t⟩ :: rest) = (live.insert t.stored).applyAll rest := rfl
    have hadded : (live.insert t.stored).size = live.size + 1 := Batch.size_insert hnew
    rw [hstep, count_cons_of_ne (by decide), count_cons_self, ih, hadded]
    omega
  | @remove live t rest hlive _ ih =>
    have hstep : live.applyAll (⟨.remove, t⟩ :: rest) = (live.erase t.key).applyAll rest := rfl
    have herased := Batch.size_erase hlive
    rw [hstep, count_cons_self, count_cons_of_ne (by decide)]
    omega

/-- Where some of the live todos are missing, effective entries still add as many todos as they say, for what is new
among all is new among these.  Of the removals some may find nothing to remove. -/
theorem Effective.coveredBy {part : Batch} (h : Effective live entries) (hcovered : part.CoveredBy live) :
    (part.applyAll entries).CoveredBy (live.applyAll entries) ∧
      part.size + count .add entries ≤ (part.applyAll entries).size + count .remove entries := by
  induction h generalizing part with
  | nil live => exact ⟨hcovered, Nat.le_refl _⟩
  | @add live t rest hnew _ ih =>
    obtain ⟨hafter, hsize⟩ := ih (hcovered.insert t.stored)
    refine ⟨hafter, ?_⟩
    have hstep : part.applyAll (⟨.add, t⟩ :: rest) = (part.insert t.stored).applyAll rest := rfl
    have hadded : (part.insert t.stored).size = part.size + 1 :=
      Batch.size_insert (Bool.eq_false_iff.mpr fun hkey => Bool.eq_false_iff.mp hnew (hcovered _ hkey))
    rw [hstep, count_cons_self, count_cons_of_ne (by decide)]
    omega
  | @remove live t rest hlive _ ih =>
    obtain ⟨hafter, hsize⟩ := ih (hcovered.erase t.key)
    refine ⟨hafter, ?_⟩
    have hstep : part.applyAll (⟨.remove, t⟩ :: rest) = (part.erase t.key).applyAll rest := rfl
    have herased := part.size_le_size_erase t.key
    rw [hstep, count_cons_of_ne (by decide), count_cons_self]
    omega

end LogEntry

end LintDebt
