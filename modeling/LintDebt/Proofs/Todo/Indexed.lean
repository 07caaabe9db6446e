import LintDebt.Proofs.Todo.Batch

/-!
# Batches with an index

A batch may be kept as a list of todos beside a map that leads from each key to the place of its todo.  The two
stay in step however the batch is built, and such a pair holds what a batch holds.

* `LintDebt.Indexed`: todos in order, with the places of their keys.
* `LintDebt.Indexed.Represents`: the pair holds the todos of a batch, and its map their places.
* `LintDebt.Recipe`: how a batch is built from todos and other batches.
* `LintDebt.Recipe.represents`: list and map are in step after any building.
* `LintDebt.Recipe.toList_batch`: what is built holds the first todos of all that were offered.
* `LintDebt.Batch.union_assoc`, `union_self`, `size_union`: the laws of a union.
* `LintDebt.Recipe.ordered_set`: what is built is a set in the order of its making.
-/

namespace LintDebt

/-! ## List and map -/

/-- Todos in order, with a map that leads from each key to the place of its todo. -/
structure Indexed where
  records : List Todo
  index : Std.ExtTreeMap String Nat

namespace Indexed

/-- Nothing, and no places. -/
def empty : Indexed := ⟨[], ∅⟩

/-- Puts a todo at the end, unless the map has its key, and answers whether it did. -/
def insert (x : Indexed) (t : Todo) : Bool × Indexed :=
  if x.index.contains t.key then (false, x)
  else (true, ⟨x.records ++ [t], x.index.insert t.key x.records.length⟩)

/-- Puts todos at the end one after the other, as far as their keys are new. -/
def insertAll (x : Indexed) (ts : List Todo) : Indexed :=
  ts.foldl (fun y t => (y.insert t).2) x

/-- Looks a key up and goes to its place, at which there might be nothing. -/
def get? (x : Indexed) (key : String) : Option (Option Todo) :=
  x.index[key]?.map fun i => x.records[i]?

/-- The pair holds the todos of a batch in order, and its map the places of their keys and no others. -/
structure Represents (x : Indexed) (b : Batch) : Prop where
  records : x.records = b.toList
  index : ∀ (key : String) (i : Nat), x.index[key]? = some i ↔ b.keys[i]? = some key

variable {x y : Indexed} {b : Batch} {t : Todo}

/-- Inserting answers whether it adds: with `true` the todo comes last, with `false` nothing changes. -/
theorem insert_adds (x : Indexed) (t : Todo) :
    ((x.insert t).1 = true ↔ (x.insert t).2.records = x.records ++ [t]) ∧
      ((x.insert t).1 = false ↔ (x.insert t).2 = x) := by
  unfold insert
  split
  · simp
  · refine ⟨by simp, nofun, fun h => ?_⟩
    have hrecords := congrArg records h
    simp at hrecords

/-- Nothing, and no places, represents the batch that holds nothing. -/
theorem represents_empty : Represents empty .empty := by
  refine ⟨rfl, fun key i => ?_⟩
  simp [empty]

/-- What stands at a place of a list with one more key. -/
theorem getElem?_concat_eq_some_iff {keys : List String} {new key : String} {i : Nat} :
    (keys ++ [new])[i]? = some key ↔ keys[i]? = some key ∨ i = keys.length ∧ new = key := by
  rcases Nat.lt_trichotomy i keys.length with hlt | rfl | hgt
  · rw [List.getElem?_append_left hlt]
    exact ⟨Or.inl, fun h => h.resolve_right fun hend => Nat.ne_of_lt hlt hend.1⟩
  · simp
  · have hbeyond : (keys ++ [new]).length ≤ i := by
      rw [List.length_append]
      exact hgt
    rw [List.getElem?_eq_none hbeyond, List.getElem?_eq_none (Nat.le_of_lt hgt)]
    simp [Nat.ne_of_gt hgt]

/-- The map has the keys that the batch contains. -/
theorem Represents.contains (h : x.Represents b) (key : String) :
    x.index.contains key = b.contains key := by
  rw [← Std.ExtTreeMap.isSome_getElem?_eq_contains, Bool.eq_iff_iff, Option.isSome_iff_exists, Batch.contains,
    List.contains_iff_mem, List.mem_iff_getElem?]
  exact exists_congr (h.index key)

/-- Inserting into list and map is inserting into the batch, and the answer is whether the key was new. -/
theorem Represents.insert (h : x.Represents b) (t : Todo) :
    (x.insert t).1 = !b.contains t.key ∧ (x.insert t).2.Represents (b.insert t) := by
  unfold Indexed.insert
  rw [h.contains]
  cases hnew : b.contains t.key with
  | true =>
    rw [Batch.insert_of_contains hnew]
    exact ⟨rfl, h⟩
  | false =>
    have hlist := Batch.toList_insert_of_new hnew
    have hkeys : (b.insert t).keys = b.keys ++ [t.key] := by
      rw [Batch.keys_eq, hlist, List.map_append, ← Batch.keys_eq]
      rfl
    have hlength : x.records.length = b.keys.length := by
      rw [h.records, Batch.keys_eq, List.length_map]
    refine ⟨rfl, (congrArg (· ++ [t]) h.records).trans hlist.symm, fun key i => ?_⟩
    show (x.index.insert t.key x.records.length)[key]? = some i ↔ _
    rw [Std.ExtTreeMap.getElem?_insert, hkeys, hlength, getElem?_concat_eq_some_iff]
    by_cases hkey : t.key = key
    · -- the new key has no place among the old ones
      subst hkey
      have hold : b.keys[i]? ≠ some t.key := by
        intro hplace
        rw [Batch.contains, List.contains_iff_mem.mpr (List.mem_of_getElem? hplace)] at hnew
        cases hnew
      simp [hold, eq_comm]
    · rw [if_neg (mt Std.compare_eq_iff_eq.mp hkey), h.index]
      simp [hkey]

/-- Inserting todos one after the other keeps list and map in step with the batch. -/
theorem Represents.insertAll (h : x.Represents b) (ts : List Todo) :
    (x.insertAll ts).Represents (ts.foldl Batch.insert b) := by
  induction ts generalizing x b with
  | nil => exact h
  | cons t rest ih => exact ih (h.insert t).2

/-- A pair that represents a batch leads from each of its keys to the todo with the key. -/
theorem Represents.get?_eq (h : x.Represents b) (key : String) : x.get? key = (b.get? key).map some := by
  unfold get?
  cases hplace : x.index[key]? with
  | none =>
    have hnone : b.get? key = none := by
      rw [Option.eq_none_iff_forall_ne_some]
      intro t ht
      obtain ⟨hmem, rfl⟩ := Batch.get?_eq_some_iff.mp ht
      have hcontains := h.contains t.key
      rw [Batch.contains_key_of_mem hmem, ← Std.ExtTreeMap.isSome_getElem?_eq_contains,
        hplace] at hcontains
      cases hcontains
    rw [hnone]
    rfl
  | some i =>
    have hkey := (h.index key i).mp hplace
    rw [Batch.keys_eq, List.getElem?_map, Option.map_eq_some_iff] at hkey
    obtain ⟨t, ht, hkey⟩ := hkey
    have hfound : b.get? key = some t := Batch.get?_eq_some_iff.mpr ⟨List.mem_of_getElem? ht, hkey⟩
    rw [hfound, Option.map_some, Option.map_some, h.records, ht]

/-- Pairs that represent one batch are the same. -/
theorem Represents.eq (hx : x.Represents b) (hy : y.Represents b) : x = y := by
  obtain ⟨records, index⟩ := x
  obtain ⟨records', index'⟩ := y
  have hrecords : records = records' := hx.records.trans hy.records.symm
  have hindex : index = index' := by
    apply Std.ExtTreeMap.ext_getElem?
    intro key
    exact Option.ext fun i => (hx.index key i).trans (hy.index key i).symm
  rw [hrecords, hindex]

end Indexed

/-! ## The laws of a union -/

namespace Batch

/-- A union with the batch that holds nothing is the other batch. -/
theorem empty_union (a : Batch) : empty.union a = a := by
  apply ext_toList
  rw [toList_union, toList_empty, List.nil_append]
  exact List.filter_eq_self.mpr fun t _ => rfl

/-- Nothing is added by the batch that holds nothing. -/
theorem union_empty (a : Batch) : a.union empty = a := rfl

/-- Nothing is added by the batch itself. -/
theorem union_self (a : Batch) : a.union a = a := by
  apply ext_toList
  rw [toList_union, List.append_right_eq_self, List.filter_eq_nil_iff]
  intro t ht
  rw [contains_key_of_mem ht]
  exact Bool.false_ne_true

/-- It makes no difference which of two unions is taken first. -/
theorem union_assoc (a b c : Batch) : (a.union b).union c = a.union (b.union c) := by
  apply ext_toList
  rw [toList_union, toList_union, toList_union, toList_union, List.filter_append, List.append_assoc,
    List.filter_filter]
  congr 2
  refine List.filter_congr fun t _ => ?_
  rw [contains_union, Bool.not_or]

/-- A union holds as many todos as both batches, but for the keys that they share. -/
theorem size_union (a b : Batch) :
    (a.union b).size + (b.keys.filter a.contains).length = a.size + b.size := by
  have hparts := List.length_eq_length_filter_add (fun t => a.contains t.key) (l := b.toList)
  have hshared : (b.keys.filter a.contains).length =
      (b.toList.filter fun t => a.contains t.key).length := by
    rw [keys_eq, List.filter_map, List.length_map]
    rfl
  rw [size_eq, size_eq, size_eq, toList_union, List.length_append, hshared]
  omega

end Batch

/-! ## Batches that are built -/

/-- A way to build a batch: from a list of todos, by one more todo, and from two batches. -/
inductive Recipe where
  | collect (todos : List Todo)
  | insert (r : Recipe) (t : Todo)
  | union (r s : Recipe)

namespace Recipe

/-- The batch that is built. -/
def batch : Recipe → Batch
  | collect todos => .ofList todos
  | insert r t => r.batch.insert t
  | union r s => r.batch.union s.batch

/-- List and map that are built in the same way. -/
def indexed : Recipe → Indexed
  | collect todos => Indexed.empty.insertAll todos
  | insert r t => (r.indexed.insert t).2
  | union r s => r.indexed.insertAll s.indexed.records

/-- All todos that are offered to a batch while it is built, in order. -/
def offered : Recipe → List Todo
  | collect todos => todos
  | insert r t => r.offered ++ [t]
  | union r s => r.offered ++ s.offered

/-- List and map are in step however they are built, and hold what the batch holds. -/
theorem represents (r : Recipe) : r.indexed.Represents r.batch := by
  induction r with
  | collect todos => exact Indexed.represents_empty.insertAll todos
  | insert r t ih => exact (ih.insert t).2
  | union r s ihr ihs =>
    have h := ihr.insertAll s.indexed.records
    rwa [ihs.records, ← Batch.union_eq_foldl, ← ihs.records] at h

/-- What is built holds the first todos of all that were offered, in the order in which they were. -/
theorem toList_batch (r : Recipe) : r.batch.toList = Todo.firsts r.offered := by
  induction r with
  | collect todos => exact Batch.toList_ofList todos
  | insert r t ih =>
    rw [batch, offered, Batch.toList_insert, Todo.firsts_concat, Batch.keys_eq, ih]
    simp only [Todo.mem_keys_firsts]
    split
    · exact (List.append_nil _).symm
    · rfl
  | union r s ihr ihs =>
    rw [batch, offered, Batch.toList_union, Batch.firsts_append, ihr, ihs]
    congr 1
    refine List.filter_congr fun t _ => ?_
    rw [Batch.contains_ofList, Bool.eq_iff_iff, Bool.not_eq_true', Bool.not_eq_true', ← Bool.not_eq_true,
      ← Bool.not_eq_true, Batch.contains_iff, ihr, List.contains_iff_mem, Todo.mem_keys_firsts]

/-- Two recipes build the same batch, and the same list and map. -/
structure Same (r s : Recipe) : Prop where
  batch : r.batch = s.batch
  indexed : r.indexed = s.indexed

/-- Recipes for one batch build the same list and map. -/
theorem same_of_batch {r s : Recipe} (h : r.batch = s.batch) : Same r s :=
  ⟨h, r.represents.eq (h ▸ s.represents)⟩

/-- The map leads exactly from the keys of the list to their places. -/
theorem index_eq_some_iff (r : Recipe) (key : String) (i : Nat) :
    r.indexed.index[key]? = some i ↔ ∃ t, r.indexed.records[i]? = some t ∧ t.key = key := by
  rw [r.represents.index, Batch.keys_eq, r.represents.records, List.getElem?_map, Option.map_eq_some_iff]

/-- However it is built, a batch with its index is a set in the order of its making.  List and map are in step,
so that looking a key up leads to the todo with the key and never past the list; the keys come in the order
in which they were first offered, each with the todo that was offered first; inserting answers whether it
adds; and a union goes on with what is new in the second batch, so that it is associative and idempotent and
has the batch of nothing on either side for nothing. -/
theorem ordered_set (r : Recipe) :
    r.indexed.records = r.batch.toList ∧ (r.indexed.records.map Todo.key).Nodup ∧
      (∀ key (i : Nat), r.indexed.index[key]? = some i ↔
        ∃ t, r.indexed.records[i]? = some t ∧ t.key = key) ∧
      (∀ key, r.indexed.get? key = (r.batch.get? key).map some) ∧
      (∀ key t, r.batch.get? key = some t ↔ t ∈ r.batch.toList ∧ t.key = key) ∧
      r.batch.keys = (r.offered.map Todo.key).eraseDups ∧
      (∀ key, r.batch.get? key = r.offered.find? (·.key == key)) ∧
      (∀ t, (r.indexed.insert t).1 = !r.batch.contains t.key ∧
        ((r.indexed.insert t).1 = true ↔ (r.insert t).indexed.records = r.indexed.records ++ [t]) ∧
        ((r.indexed.insert t).1 = false ↔ (r.insert t).indexed = r.indexed)) ∧
      (∀ s : Recipe, (r.union s).batch.toList =
          r.batch.toList ++ s.batch.toList.filter (fun t => !r.batch.contains t.key) ∧
        (r.union s).batch.size + (s.batch.keys.filter r.batch.contains).length =
          r.batch.size + s.batch.size) ∧
      (∀ s u, Same ((r.union s).union u) (r.union (s.union u))) ∧ Same (r.union r) r ∧
      Same ((collect []).union r) r ∧ Same (r.union (collect [])) r := by
  have hrecords := r.represents.records
  refine ⟨hrecords, hrecords ▸ r.batch.nodup_keys_toList, r.index_eq_some_iff, r.represents.get?_eq,
    fun key t => Batch.get?_eq_some_iff, ?_, fun key => ?_,
    fun t => ⟨(r.represents.insert t).1, r.indexed.insert_adds t⟩, fun s => ?_, fun s u => ?_, ?_, ?_, ?_⟩
  · rw [Batch.keys_eq, r.toList_batch, Todo.keys_firsts]
  · rw [Batch.get?_eq_find?, r.toList_batch, Todo.find?_firsts]
  · exact ⟨Batch.toList_union r.batch s.batch, Batch.size_union r.batch s.batch⟩
  · exact same_of_batch (Batch.union_assoc r.batch s.batch u.batch)
  · exact same_of_batch (Batch.union_self r.batch)
  · exact same_of_batch (Batch.empty_union r.batch)
  · exact same_of_batch (Batch.union_empty r.batch)

end Recipe

end LintDebt
