import LintDebt.Proofs.Log.Live
import Mathlib.Data.List.Induction
import Mathlib.Data.List.Nodup
import Std.Data.ExtTreeMap

/-!
# Live todos by their keys

The live todos of a log may be kept in a map from their keys, each with the number under which it came; asked for,
they are put in the order of these numbers.  Numbers are never given twice and only rise along the log, so that
such a map answers what the batch of the live todos answers, and its numbers stand in the order of the entries
that founded the todos.

* `LintDebt.LiveSet`: a map from keys to numbered todos, with the number that comes next.
* `LintDebt.LiveSet.apply`, `fold`: the map after one more entry, and of a log.
* `LintDebt.LiveSet.containsKey`, `len`, `recordsWhere`, `records`: what a map is asked.
* `LintDebt.LiveSet.Stamps`, `Represents`: the numbered todos of a map, and the batch that holds them.
* `LintDebt.LiveSet.Represents.apply`, `represents_fold`: map and batch stay in step along a log.
* `LintDebt.LiveSet.Represents.recordsWhere`, `containsKey_eq`, `len_eq`: the map answers what the batch answers.
* `LintDebt.LiveSet.fold_founded`: the map of a log in terms of the places of its entries.
-/

namespace LintDebt

/-! ## Map and numbers -/

/-- Live todos by their keys, each with the number under which it came.  The next number counts what has come so
far, also what has gone since, so that no number is given twice. -/
structure LiveSet where
  next : Nat
  byKey : Std.ExtTreeMap String (Nat × Todo)

namespace LiveSet

/-- Nothing is live, and nothing has come. -/
def empty : LiveSet := ⟨0, ∅⟩

/-- The live todos after one more entry.  A todo that is live already stays as it is. -/
def apply (x : LiveSet) (entry : LogEntry) : LiveSet :=
  match entry.op with
  | .add =>
    if x.byKey.contains entry.todo.key then x
    else ⟨x.next + 1, x.byKey.insert entry.todo.key (x.next, entry.todo.stored)⟩
  | .remove => { x with byKey := x.byKey.erase entry.todo.key }

/-- The live todos after several entries. -/
def applyAll (x : LiveSet) (entries : List LogEntry) : LiveSet :=
  entries.foldl apply x

/-- The live todos of a log. -/
def fold (entries : List LogEntry) : LiveSet :=
  empty.applyAll entries

/-- Whether a todo with the given key is live. -/
def containsKey (x : LiveSet) (key : String) : Bool :=
  x.byKey.contains key

/-- How many todos are live. -/
def len (x : LiveSet) : Nat :=
  x.byKey.size

/-- The live todos that pass a test, sorted by their numbers. -/
def recordsWhere (x : LiveSet) (keep : Todo → Bool) : List Todo :=
  (((x.byKey.toList.map Prod.snd).filter fun v => keep v.2).mergeSort fun v w => v.1 ≤ w.1).map Prod.snd

/-- The live todos, sorted by their numbers. -/
def records (x : LiveSet) : List Todo :=
  x.recordsWhere fun _ => true

/-! ## The numbered todos of a map -/

/-- The list holds what the map holds, by rising numbers, all of which were given before the next. -/
structure Stamps (x : LiveSet) (stamped : List (Nat × Todo)) : Prop where
  ordered : stamped.Pairwise fun v w => v.1 < w.1
  below : ∀ v ∈ stamped, v.1 < x.next
  byKey : ∀ key v, x.byKey[key]? = some v ↔ v ∈ stamped ∧ v.2.key = key

/-- The numbered todos after one more entry: one whose key is new stands last, under the next number. -/
def stampedBy (x : LiveSet) (stamped : List (Nat × Todo)) (e : LogEntry) : List (Nat × Todo) :=
  match e.op with
  | .add => if x.containsKey e.todo.key then stamped else stamped ++ [(x.next, e.todo.stored)]
  | .remove => stamped.filter fun v => !(v.2.key == e.todo.key)

/-- In the order of their numbers, the todos of the map are those of a batch. -/
def Represents (x : LiveSet) (b : Batch) : Prop :=
  ∃ stamped, x.Stamps stamped ∧ stamped.map Prod.snd = b.toList

variable {x : LiveSet} {stamped : List (Nat × Todo)} {b : Batch} {key : String} {n : Nat} {t : Todo}

/-- The empty map holds nothing. -/
theorem stamps_empty : empty.Stamps [] where
  ordered := List.Pairwise.nil
  below _ h := absurd h List.not_mem_nil
  byKey key v := by
    show (∅ : Std.ExtTreeMap String (Nat × Todo))[key]? = some v ↔ _
    rw [Std.ExtTreeMap.getElem?_empty]
    exact iff_of_false nofun fun h => List.not_mem_nil h.1

namespace Stamps

/-- The map has the keys of its todos. -/
theorem containsKey_iff (h : x.Stamps stamped) : x.containsKey key = true ↔ ∃ v ∈ stamped, v.2.key = key := by
  rw [containsKey, ← Std.ExtTreeMap.isSome_getElem?_eq_contains, Option.isSome_iff_exists]
  exact exists_congr (h.byKey key)

/-- The list has every todo once. -/
theorem nodup (h : x.Stamps stamped) : stamped.Nodup :=
  h.ordered.imp fun hlt heq => Nat.ne_of_lt hlt (congrArg Prod.fst heq)

/-- Todos with one number are the same. -/
theorem eq_of_number_eq (h : x.Stamps stamped) {v w : Nat × Todo} (hv : v ∈ stamped) (hw : w ∈ stamped)
    (hnumber : v.1 = w.1) : v = w :=
  List.inj_on_of_nodup_map (List.pairwise_map.mpr (h.ordered.imp Nat.ne_of_lt)) hv hw hnumber

/-- What the map holds is the list, but for the order. -/
theorem perm_values (h : x.Stamps stamped) : (x.byKey.toList.map Prod.snd).Perm stamped := by
  have hentry : ∀ p ∈ x.byKey.toList, p.2 ∈ stamped ∧ p.2.2.key = p.1 := fun p hp =>
    (h.byKey p.1 p.2).mp (Std.ExtTreeMap.mem_toList_iff_getElem?_eq_some.mp hp)
  refine (List.perm_ext_iff_of_nodup ?_ h.nodup).mpr fun v => ?_
  · -- todos under different keys have different keys themselves
    refine List.pairwise_map.mpr (x.byKey.distinct_keys_toList.imp_of_mem fun hp hq hdistinct heq => ?_)
    refine hdistinct (Std.compare_eq_iff_eq.mpr ?_)
    rw [← (hentry _ hp).2, ← (hentry _ hq).2, heq]
  · rw [List.mem_map]
    constructor
    · rintro ⟨p, hp, rfl⟩
      exact (hentry p hp).1
    · intro hv
      exact ⟨(v.2.key, v), Std.ExtTreeMap.mem_toList_iff_getElem?_eq_some.mpr ((h.byKey _ v).mpr ⟨hv, rfl⟩), rfl⟩

/-- Sorted by their numbers, the todos that pass a test come as they do in the list. -/
theorem recordsWhere_eq (h : x.Stamps stamped) (keep : Todo → Bool) :
    x.recordsWhere keep = (stamped.filter fun v => keep v.2).map Prod.snd := by
  unfold recordsWhere
  congr 1
  have hsorted : (stamped.filter fun v => keep v.2).Pairwise fun v w => decide (v.1 ≤ w.1) = true :=
    (h.ordered.filter _).imp fun hlt => decide_eq_true (Nat.le_of_lt hlt)
  have hperm := (List.mergeSort_perm _ fun v w : Nat × Todo => decide (v.1 ≤ w.1)).trans
    (h.perm_values.filter fun v => keep v.2)
  refine List.Perm.eq_of_pairwise (fun v w hv hw hle hge => ?_) (List.pairwise_mergeSort ?_ ?_ _) hsorted hperm
  · refine h.eq_of_number_eq (List.mem_filter.mp (hperm.mem_iff.mp hv)).1 (List.mem_filter.mp hw).1 ?_
    exact Nat.le_antisymm (of_decide_eq_true hle) (of_decide_eq_true hge)
  · exact fun u v w huv hvw => decide_eq_true (Nat.le_trans (of_decide_eq_true huv) (of_decide_eq_true hvw))
  · exact fun v w => by simpa using Nat.le_total v.1 w.1

/-- Sorted by their numbers, the todos come as they do in the list. -/
theorem records_eq (h : x.Stamps stamped) : x.records = stamped.map Prod.snd := by
  rw [records, h.recordsWhere_eq, List.filter_eq_self.mpr fun _ _ => rfl]

/-- The map holds as many todos as the list. -/
theorem len_eq (h : x.Stamps stamped) : x.len = stamped.length := by
  rw [len, ← Std.ExtTreeMap.length_toList, ← h.perm_values.length_eq, List.length_map]

/-- A todo with a new key gets the next number, and stands last. -/
theorem insert (h : x.Stamps stamped) (hnew : x.containsKey t.key = false) :
    Stamps ⟨x.next + 1, x.byKey.insert t.key (x.next, t)⟩ (stamped ++ [(x.next, t)]) where
  ordered := by
    refine List.pairwise_append.mpr ⟨h.ordered, List.pairwise_singleton _ _, fun v hv w hw => ?_⟩
    obtain rfl := List.mem_singleton.mp hw
    exact h.below v hv
  below v hv := by
    rcases List.mem_append.mp hv with hv | hv
    · exact Nat.lt_succ_of_lt (h.below v hv)
    · obtain rfl := List.mem_singleton.mp hv
      exact Nat.lt_succ_self _
  byKey key v := by
    have hold : ¬ ∃ w ∈ stamped, w.2.key = t.key := by
      rw [← h.containsKey_iff, hnew]
      exact Bool.false_ne_true
    rw [Std.ExtTreeMap.getElem?_insert, List.mem_append, List.mem_singleton]
    by_cases hkey : t.key = key
    · subst hkey
      rw [if_pos (Std.compare_eq_iff_eq.mpr rfl)]
      constructor
      · intro heq
        obtain rfl := Option.some.inj heq
        exact ⟨.inr rfl, rfl⟩
      · rintro ⟨hv | rfl, hvkey⟩
        · exact absurd ⟨v, hv, hvkey⟩ hold
        · rfl
    · rw [if_neg (mt Std.compare_eq_iff_eq.mp hkey), h.byKey]
      refine and_congr_left fun hvkey => (or_iff_left ?_).symm
      rintro rfl
      exact hkey hvkey

/-- Erasing a key takes its todo out of the list. -/
theorem erase (h : x.Stamps stamped) (key : String) :
    Stamps { x with byKey := x.byKey.erase key } (stamped.filter fun v => !(v.2.key == key)) where
  ordered := h.ordered.filter _
  below v hv := h.below v (List.mem_filter.mp hv).1
  byKey other v := by
    rw [Std.ExtTreeMap.getElem?_erase, List.mem_filter, Bool.not_eq_true', beq_eq_false_iff_ne]
    by_cases hkey : key = other
    · subst hkey
      rw [if_pos (Std.compare_eq_iff_eq.mpr rfl)]
      exact iff_of_false nofun fun hv => hv.1.2 hv.2
    · rw [if_neg (mt Std.compare_eq_iff_eq.mp hkey), h.byKey]
      refine and_congr_left fun hvkey => (and_iff_left ?_).symm
      rw [hvkey]
      exact Ne.symm hkey

/-- What the map holds after one more entry. -/
theorem apply (h : x.Stamps stamped) (e : LogEntry) : (x.apply e).Stamps (stampedBy x stamped e) := by
  obtain ⟨op, t⟩ := e
  cases op with
  | add =>
    show Stamps (if x.containsKey t.key then x else _) (if x.containsKey t.key then stamped else _)
    cases hkey : x.containsKey t.key with
    | true => exact h
    | false => exact h.insert (t := t.stored) hkey
  | remove => exact h.erase t.key

end Stamps

/-! ## Map and batch -/

/-- The empty map represents the batch that holds nothing. -/
theorem represents_empty : Represents empty .empty :=
  ⟨[], stamps_empty, rfl⟩

namespace Represents

/-- The map has the keys that the batch contains. -/
theorem containsKey_eq (h : x.Represents b) (key : String) : x.containsKey key = b.contains key := by
  obtain ⟨stamped, hstamps, hlist⟩ := h
  rw [Bool.eq_iff_iff, hstamps.containsKey_iff, Batch.contains_iff, ← hlist, List.map_map, List.mem_map]
  rfl

/-- The todos of the map that pass a test are those of the batch, in its order. -/
theorem recordsWhere (h : x.Represents b) (keep : Todo → Bool) :
    x.recordsWhere keep = (b.filter keep).toList := by
  obtain ⟨stamped, hstamps, hlist⟩ := h
  rw [hstamps.recordsWhere_eq, Batch.toList_filter, ← hlist, List.filter_map]
  rfl

/-- The todos of the map are those of the batch, in its order. -/
theorem records (h : x.Represents b) : x.records = b.toList := by
  obtain ⟨stamped, hstamps, hlist⟩ := h
  exact hstamps.records_eq.trans hlist

/-- The map holds as many todos as the batch. -/
theorem len_eq (h : x.Represents b) : x.len = b.size := by
  obtain ⟨stamped, hstamps, hlist⟩ := h
  rw [hstamps.len_eq, Batch.size_eq, ← hlist, List.length_map]

/-- Map and batch stay in step with one more entry. -/
theorem apply (h : x.Represents b) (e : LogEntry) : (x.apply e).Represents (b.apply e) := by
  have hcontains := h.containsKey_eq e.todo.key
  obtain ⟨stamped, hstamps, hlist⟩ := h
  refine ⟨_, hstamps.apply e, ?_⟩
  obtain ⟨op, t⟩ := e
  cases op with
  | add =>
    show List.map Prod.snd (if x.containsKey t.key then stamped else _) = (b.insert t.stored).toList
    cases hkey : x.containsKey t.key with
    | true =>
      have hold : b.contains t.stored.key = true := hcontains.symm.trans hkey
      rw [if_pos rfl, hlist, Batch.insert_of_contains hold]
    | false =>
      have hnew : b.contains t.stored.key = false := hcontains.symm.trans hkey
      rw [if_neg Bool.false_ne_true, List.map_append, hlist, Batch.toList_insert_of_new hnew]
      rfl
  | remove =>
    show List.map Prod.snd (stamped.filter fun v => !(v.2.key == t.key)) = (b.erase t.key).toList
    rw [Batch.toList_erase, ← hlist, List.filter_map]
    rfl

/-- Map and batch stay in step along several entries. -/
theorem applyAll (h : x.Represents b) (entries : List LogEntry) :
    (x.applyAll entries).Represents (b.applyAll entries) := by
  induction entries generalizing x b with
  | nil => exact h
  | cons e rest ih => exact ih (h.apply e)

end Represents

/-- The map of a log represents its live todos. -/
theorem represents_fold (entries : List LogEntry) : (fold entries).Represents (LogEntry.live entries) :=
  represents_empty.applyAll entries

/-! ## Numbers and places -/

/-- An entry brings one number at most. -/
theorem next_apply_le (x : LiveSet) (e : LogEntry) : (x.apply e).next ≤ x.next + 1 := by
  unfold apply
  split
  · split
    · exact Nat.le_succ _
    · exact Nat.le_refl _
  · exact Nat.le_succ _

/-- No more numbers are given than there are entries. -/
theorem next_applyAll_le (x : LiveSet) (entries : List LogEntry) :
    (x.applyAll entries).next ≤ x.next + entries.length := by
  induction entries generalizing x with
  | nil => exact Nat.le_refl _
  | cons e rest ih =>
    have hone := next_apply_le x e
    have hrest : (x.applyAll (e :: rest)).next ≤ (x.apply e).next + rest.length := ih (x.apply e)
    rw [List.length_cons]
    omega

/-- A live todo of a log: the number under which it came, the place of the entry that founded it, and what
this entry adds. -/
structure Founding where
  number : Nat
  place : Nat
  todo : Todo

/-- The list names what the map holds and what the entries have founded, by rising numbers and places alike. -/
structure Founded (x : LiveSet) (founded : List Founding) (entries : List LogEntry) : Prop where
  stamps : x.Stamps (founded.map fun f => (f.number, f.todo.stored))
  lists : LogEntry.Lists (founded.map fun f => (f.place, f.todo)) entries

variable {founded : List Founding} {entries : List LogEntry}

namespace Founded

/-- The map has the keys of what was founded. -/
theorem containsKey_iff (h : x.Founded founded entries) :
    x.containsKey key = true ↔ key ∈ (founded.map fun f => (f.place, f.todo)).map fun f => f.2.key := by
  rw [h.stamps.containsKey_iff, ← List.mem_map, List.map_map, List.map_map]
  rfl

/-- One more entry founds a todo, which comes under the next number, or takes one out of the list, or does
neither. -/
theorem apply (h : x.Founded founded entries) (e : LogEntry) :
    ∃ founded', (x.apply e).Founded founded' (entries ++ [e]) := by
  have hstamps := h.stamps.apply e
  obtain ⟨op, t⟩ := e
  cases op with
  | add =>
    have hstamped : stampedBy x (founded.map fun f => (f.number, f.todo.stored)) ⟨.add, t⟩ =
      if x.containsKey t.key then _ else _ := rfl
    cases hkey : x.containsKey t.key with
    | true =>
      rw [hstamped, hkey, if_pos rfl] at hstamps
      exact ⟨founded, hstamps, h.lists.concat_add (h.containsKey_iff.mp hkey)⟩
    | false =>
      rw [hstamped, hkey, if_neg Bool.false_ne_true] at hstamps
      have hnew := mt h.containsKey_iff.mpr (Bool.eq_false_iff.mp hkey)
      refine ⟨founded ++ [⟨x.next, entries.length, t⟩], ?_, ?_⟩
      · rw [List.map_append]
        exact hstamps
      · rw [List.map_append]
        exact h.lists.concat_add_new hnew
  | remove =>
    refine ⟨founded.filter fun f => !(f.todo.key == t.key), ?_, ?_⟩
    · have hfilter : stampedBy x (founded.map fun f => (f.number, f.todo.stored)) ⟨.remove, t⟩ = _ :=
        List.filter_map
      rwa [hfilter] at hstamps
    · have hremove := h.lists.concat_remove (t := t)
      rwa [List.filter_map] at hremove

end Founded

/-- What the map of a log holds was founded by entries of the log. -/
theorem exists_founded (entries : List LogEntry) : ∃ founded, (fold entries).Founded founded entries := by
  induction entries using List.reverseRecOn with
  | nil =>
    refine ⟨[], stamps_empty, List.Pairwise.nil, fun place t => ?_⟩
    exact iff_of_false List.not_mem_nil fun h => Nat.not_lt_zero place h.lt_length
  | append_singleton entries e ih =>
    obtain ⟨founded, hfounded⟩ := ih
    rw [fold, applyAll, List.foldl_append]
    exact hfounded.apply e

/-- A key is live when an entry adds it and no later one removes it; the live todo with this key is the one of the
first entry that adds it behind its last removal, as far as it is stored; and the live todos come in the order of
these entries, as many as there are of them.  For numbers rise with places: the map holds each todo under a number
that was given before the next one, and of two todos the one that was founded first has the lower number. -/
theorem fold_founded (entries : List LogEntry) :
    (∀ key, (fold entries).containsKey key = true ↔ ∃ place, LogEntry.LastsAt entries key place) ∧
      (∀ key t, (∃ n, (fold entries).byKey[key]? = some (n, t)) ↔
        ∃ place u, LogEntry.Founds entries place u ∧ u.key = key ∧ t = u.stored) ∧
      (∃ founded : List Founding,
        (founded.map Founding.place).Pairwise (· < ·) ∧ (founded.map Founding.number).Pairwise (· < ·) ∧
        (∀ place u, LogEntry.Founds entries place u ↔ ∃ f ∈ founded, f.place = place ∧ f.todo = u) ∧
        (∀ key n t, (fold entries).byKey[key]? = some (n, t) ↔
          ∃ f ∈ founded, f.todo.key = key ∧ f.number = n ∧ f.todo.stored = t) ∧
        (∀ f ∈ founded, f.number < (fold entries).next) ∧
        (fold entries).records = (founded.map fun f => f.todo.stored) ∧
        (fold entries).len = founded.length) ∧
      (fold entries).next ≤ entries.length ∧
      (fold entries).records = (LogEntry.live entries).toList := by
  obtain ⟨founded, hstamps, hlists⟩ := exists_founded entries
  have hbyKey (key : String) (n : Nat) (t : Todo) : (fold entries).byKey[key]? = some (n, t) ↔
      ∃ f ∈ founded, f.todo.key = key ∧ f.number = n ∧ f.todo.stored = t := by
    rw [hstamps.byKey, List.mem_map]
    constructor
    · rintro ⟨⟨f, hf, heq⟩, hkey⟩
      cases heq
      exact ⟨f, hf, hkey, rfl, rfl⟩
    · rintro ⟨f, hf, hkey, rfl, rfl⟩
      exact ⟨⟨f, hf, rfl⟩, hkey⟩
  have hfounds (place : Nat) (u : Todo) : LogEntry.Founds entries place u ↔
      ∃ f ∈ founded, f.place = place ∧ f.todo = u := by
    rw [← hlists.mem_iff, List.mem_map]
    simp only [Prod.mk.injEq]
  have hnext := next_applyAll_le empty entries
  refine ⟨fun key => ?_, fun key t => ?_, ⟨founded, ?_, ?_, hfounds, hbyKey, ?_, ?_, ?_⟩, ?_,
    (represents_fold entries).records⟩
  · rw [Founded.containsKey_iff ⟨hstamps, hlists⟩, hlists.mem_keys_iff]
  · simp only [hbyKey, hfounds]
    constructor
    · rintro ⟨n, f, hf, hkey, -, rfl⟩
      exact ⟨f.place, f.todo, ⟨f, hf, rfl, rfl⟩, hkey, rfl⟩
    · rintro ⟨place, u, ⟨f, hf, -, rfl⟩, hkey, rfl⟩
      exact ⟨f.number, f, hf, hkey, rfl, rfl⟩
  · have hordered := hlists.ordered
    rwa [List.map_map] at hordered
  · have hordered := List.pairwise_map.mp hstamps.ordered
    exact List.pairwise_map.mpr hordered
  · exact fun f hf => hstamps.below _ (List.mem_map_of_mem hf)
  · rw [hstamps.records_eq, List.map_map]
    rfl
  · rw [hstamps.len_eq, List.length_map]
  · rwa [show empty.next = 0 from rfl, Nat.zero_add] at hnext

end LiveSet

end LintDebt
