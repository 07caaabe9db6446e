import LintDebt.Log
import Mathlib.Data.List.Induction
import Mathlib.Data.List.Nodup

/-!
# Batches as lists

A batch is known by its todos in order, and every operation on batches is one on these lists.

* `LintDebt.Batch.ext_toList`: batches with the same todos in the same order are the same.
* `LintDebt.Batch.size_insert`, `size_erase`: how many todos a batch has with one more, or one less.
* `LintDebt.Todo.firsts`: a list without the todos whose key has come before.
* `LintDebt.Todo.keys_firsts`: its keys are those of the list, each where it comes first.
* `LintDebt.Batch.toList_ofList`, `toList_union`: what inserting many todos gives.
* `LintDebt.Batch.firsts_append`: the first todos of two lists.
* `LintDebt.Batches.put`, `LintDebt.Batches.toList_sorted`: todos sorted into three batches.
* `LintDebt.Batch.toList_applyAll_add`, `toList_applyAll_remove`: what many entries of one kind make of
  the live todos.
* `LintDebt.LogEntry.stored_of_mem_live`: the live todos of a log lack what is never stored.
-/

namespace LintDebt

/-! ## First todos -/

namespace Todo

/-- A list without the todos whose key has come before. -/
def firsts : List Todo → List Todo
  | [] => []
  | t :: rest => t :: (firsts rest).filter (fun u => !(u.key == t.key))

/-- The first todos have different keys. -/
theorem nodup_keys_firsts (ts : List Todo) : ((firsts ts).map key).Nodup := by
  induction ts with
  | nil => exact List.nodup_nil
  | cons t rest ih =>
    rw [firsts, List.map_cons, List.nodup_cons]
    constructor
    · intro h
      obtain ⟨u, hu, hkey⟩ := List.mem_map.mp h
      simp [hkey] at hu
    · exact ih.sublist (List.filter_sublist.map key)

/-- Of todos with different keys each is the first with its key. -/
theorem firsts_of_nodup {ts : List Todo} (h : (ts.map key).Nodup) : firsts ts = ts := by
  induction ts with
  | nil => rfl
  | cons t rest ih =>
    rw [List.map_cons, List.nodup_cons] at h
    rw [firsts, ih h.2]
    congr 1
    refine List.filter_eq_self.mpr fun u hu => ?_
    have hne : u.key ≠ t.key := fun hkey => h.1 (hkey ▸ List.mem_map_of_mem hu)
    simp [hne]

/-- One more todo at the end is a first todo when its key is new. -/
theorem firsts_concat (ts : List Todo) (t : Todo) :
    firsts (ts ++ [t]) = firsts ts ++ if t.key ∈ ts.map key then [] else [t] := by
  induction ts with
  | nil => rfl
  | cons u rest ih =>
    rw [List.cons_append, firsts, firsts, ih, List.filter_append, List.cons_append, List.map_cons]
    congr 2
    by_cases hu : t.key = u.key
    · by_cases hrest : u.key ∈ rest.map key
      · simp [hu, hrest]
      · simp [hu, hrest]
    · by_cases hrest : t.key ∈ rest.map key
      · simp [hrest]
      · simp [hu, hrest]

/-- Every key of a list is the key of one of its first todos. -/
theorem mem_keys_firsts {ts : List Todo} {k : String} :
    k ∈ (firsts ts).map key ↔ k ∈ ts.map key := by
  induction ts with
  | nil => exact Iff.rfl
  | cons t rest ih =>
    rw [firsts, List.map_cons, List.map_cons, List.mem_cons, List.mem_cons]
    by_cases h : k = t.key
    · simp [h]
    · rw [← ih]
      simp only [h, false_or, List.mem_map, List.mem_filter]
      constructor
      · rintro ⟨u, ⟨hu, -⟩, rfl⟩
        exact ⟨u, hu, rfl⟩
      · rintro ⟨u, hu, rfl⟩
        exact ⟨u, ⟨hu, by simpa using h⟩, rfl⟩

/-- The keys of the first todos are the keys of all of them, each where it comes first. -/
theorem keys_firsts (ts : List Todo) : (firsts ts).map key = (ts.map key).eraseDups := by
  induction ts using List.reverseRecOn with
  | nil => rfl
  | append_singleton ts t ih =>
    have hlast : ([t.key].removeAll (ts.map key)).eraseDups =
        if t.key ∈ ts.map key then [] else [t.key] := by
      rw [List.cons_removeAll, List.nil_removeAll]
      by_cases h : t.key ∈ ts.map key
      · rw [if_pos h, if_neg (by simpa using h)]
        rfl
      · rw [if_neg h, if_pos (by simpa using h), List.eraseDups_cons]
        rfl
    rw [firsts_concat, List.map_append, List.map_append, List.eraseDups_append, ih, List.map_singleton,
      hlast]
    congr 1
    split <;> rfl

/-- Of todos with different keys, the one with a key is found. -/
theorem find?_eq_some_iff {ts : List Todo} (h : (ts.map key).Nodup) {k : String} {t : Todo} :
    ts.find? (·.key == k) = some t ↔ t ∈ ts ∧ t.key = k := by
  constructor
  · intro hfind
    exact ⟨List.mem_of_find?_eq_some hfind, by simpa using List.find?_some hfind⟩
  · rintro ⟨hmem, rfl⟩
    cases hfind : ts.find? (·.key == t.key) with
    | none => exact absurd (List.find?_eq_none.mp hfind t hmem) (by simp)
    | some u =>
      have hkey : u.key = t.key := by simpa using List.find?_some hfind
      rw [List.inj_on_of_nodup_map h (List.mem_of_find?_eq_some hfind) hmem hkey]

/-- A first todo is the first with its key. -/
theorem find?_firsts (ts : List Todo) (k : String) :
    (firsts ts).find? (·.key == k) = ts.find? (·.key == k) := by
  induction ts with
  | nil => rfl
  | cons t rest ih =>
    rw [firsts, List.find?_cons, List.find?_cons, List.find?_filter]
    by_cases h : t.key = k
    · simp [h]
    · have hsame : (fun u : Todo => decide ((!(u.key == t.key)) = true ∧ (u.key == k) = true)) =
          fun u => u.key == k := by
        funext u
        by_cases hu : u.key = k
        · simp [hu, Ne.symm h]
        · simp [hu]
      rw [hsame, ih]

/-- A list without the todos whose key has come before has no other todos. -/
theorem mem_of_mem_firsts {ts : List Todo} {t : Todo} (h : t ∈ firsts ts) : t ∈ ts := by
  have hfind := (find?_eq_some_iff (nodup_keys_firsts ts)).mpr ⟨h, rfl⟩
  rw [find?_firsts] at hfind
  exact List.mem_of_find?_eq_some hfind

end Todo

namespace Batch

/-! ## Reading a batch -/

/-- Batches with the same todos in the same order are the same. -/
theorem ext_toList {a b : Batch} (h : a.toList = b.toList) : a = b := by
  obtain ⟨as, ha⟩ := a
  obtain ⟨bs, hb⟩ := b
  have hentries : as = bs := by
    refine List.map_inj_right (fun x y hxy => ?_) |>.mp h
    obtain ⟨t, k, rfl⟩ := x
    obtain ⟨u, m, rfl⟩ := y
    cases hxy
    rfl
  subst hentries
  rfl

/-- The todos of a batch have different keys. -/
theorem nodup_keys_toList (b : Batch) : (b.toList.map Todo.key).Nodup := by
  rw [← keys_eq]
  exact b.nodup_keys

/-- The todos of a batch are told apart by their keys. -/
theorem eq_of_key_eq {b : Batch} {t u : Todo} (ht : t ∈ b.toList) (hu : u ∈ b.toList)
    (h : t.key = u.key) : t = u :=
  List.inj_on_of_nodup_map b.nodup_keys_toList ht hu h

/-- A batch contains a key when one of its todos has it. -/
theorem contains_iff {b : Batch} {key : String} :
    b.contains key = true ↔ key ∈ b.toList.map Todo.key := by
  rw [contains, List.contains_iff_mem, keys_eq]

/-- A batch contains the keys of its todos. -/
theorem contains_key_of_mem {b : Batch} {t : Todo} (h : t ∈ b.toList) : b.contains t.key = true :=
  contains_iff.mpr (List.mem_map_of_mem h)

/-- The todo with a key is found among the todos of the batch. -/
theorem get?_eq_find? (b : Batch) (key : String) :
    b.get? key = b.toList.find? (·.key == key) := by
  have hkeys : (fun k : Keyed => k.todo.key == key) = fun k => k.key == key := by
    funext k
    rw [k.key_eq]
  rw [get?, toList, List.find?_map]
  exact congrArg (fun p => (b.entries.find? p).map Keyed.todo) hkeys.symm

/-- A batch contains a key when a todo with the key is found in it. -/
theorem contains_eq_isSome_find? (b : Batch) (key : String) :
    b.contains key = (b.toList.find? (·.key == key)).isSome := by
  rw [Bool.eq_iff_iff, contains_iff, List.find?_isSome, List.mem_map]
  simp only [beq_iff_eq]

/-- The todo with a key is the one todo of the batch that has it. -/
theorem get?_eq_some_iff {b : Batch} {key : String} {t : Todo} :
    b.get? key = some t ↔ t ∈ b.toList ∧ t.key = key := by
  rw [get?_eq_find?, Todo.find?_eq_some_iff b.nodup_keys_toList]

/-- A batch is empty when it has no todos. -/
theorem isEmpty_eq (b : Batch) : b.isEmpty = b.toList.isEmpty := by
  rw [isEmpty, toList, List.isEmpty_map]

/-- An entry of a batch is its todo with the key of the todo. -/
theorem of_todo (k : Keyed) : Keyed.of k.todo = k := by
  obtain ⟨t, key, rfl⟩ := k
  rfl

/-- What is kept of a batch is what is kept of its todos. -/
theorem toList_filterEntries (b : Batch) (keep : Keyed → Bool) :
    (b.filterEntries keep).toList = b.toList.filter fun t => keep (Keyed.of t) := by
  rw [filterEntries, toList, toList, List.filter_map]
  congr 1
  exact List.filter_congr fun k _ => by rw [Function.comp_apply, of_todo]

/-- What is kept of a batch by its todos is what is kept of its todos. -/
theorem toList_filter (b : Batch) (keep : Todo → Bool) :
    (b.filter keep).toList = b.toList.filter keep :=
  toList_filterEntries b _

/-! ## One more todo, or one less -/

/-- A batch holds as many todos as stand in its list. -/
theorem size_eq (b : Batch) : b.size = b.toList.length := by
  rw [size, toList, List.length_map]

/-- A todo whose key is there already leaves a batch as it is. -/
theorem insert_of_contains {b : Batch} {t : Todo} (h : b.contains t.key = true) : b.insert t = b := by
  apply ext_toList
  rw [toList_insert, if_pos (List.contains_iff_mem.mp h)]

/-- A todo with a new key comes behind all others. -/
theorem toList_insert_of_new {b : Batch} {t : Todo} (h : b.contains t.key = false) :
    (b.insert t).toList = b.toList ++ [t] := by
  rw [toList_insert, if_neg]
  rw [keys_eq, ← contains_iff, h]
  exact Bool.false_ne_true

/-- A todo with a new key makes a batch larger. -/
theorem size_insert {b : Batch} {t : Todo} (h : b.contains t.key = false) : (b.insert t).size = b.size + 1 := by
  rw [size_eq, size_eq, toList_insert_of_new h, List.length_append, List.length_singleton]

/-- Taking out a key that is there makes a batch smaller. -/
theorem size_erase {b : Batch} {key : String} (h : b.contains key = true) : (b.erase key).size + 1 = b.size := by
  have hkeys : (b.erase key).keys = b.keys.erase key := by
    have herase : b.keys.erase key = b.keys.filter (· != key) := b.nodup_keys.erase_eq_filter key
    rw [herase, keys, keys, List.filter_map]
    rfl
  have hlength : (b.keys.erase key).length + 1 = b.keys.length :=
    List.length_erase_add_one (List.contains_iff_mem.mp h)
  rwa [← hkeys, keys, keys, List.length_map, List.length_map] at hlength

/-- A batch without a key does not contain it. -/
theorem contains_erase (b : Batch) (key other : String) :
    (b.erase key).contains other = (b.contains other && !(other == key)) := by
  rw [Bool.eq_iff_iff, contains_iff, toList_erase, Bool.and_eq_true_iff, contains_iff]
  simp only [List.mem_map, List.mem_filter]
  constructor
  · rintro ⟨t, ⟨ht, hkey⟩, rfl⟩
    exact ⟨⟨t, ht, rfl⟩, hkey⟩
  · rintro ⟨⟨t, ht, rfl⟩, hkey⟩
    exact ⟨t, ⟨ht, hkey⟩, rfl⟩

/-- A batch with one more todo contains also its key. -/
theorem contains_insert (b : Batch) (t : Todo) (key : String) :
    (b.insert t).contains key = (b.contains key || key == t.key) := by
  rw [Bool.eq_iff_iff, contains_iff, toList_insert, Bool.or_eq_true, contains_iff, beq_iff_eq]
  split
  · next hin =>
    refine (or_iff_left_of_imp ?_).symm
    rintro rfl
    rwa [← keys_eq]
  · rw [List.map_append, List.mem_append, List.map_singleton, List.mem_singleton]

/-! ## Inserting many todos -/

/-- Inserting many todos adds the first ones with new keys. -/
theorem toList_foldl_insert (b : Batch) (ts : List Todo) :
    (ts.foldl insert b).toList =
      b.toList ++ (Todo.firsts ts).filter (fun t => !b.contains t.key) := by
  induction ts generalizing b with
  | nil => simp [Todo.firsts]
  | cons t rest ih =>
    rw [List.foldl_cons, ih, Todo.firsts, List.filter_cons, List.filter_filter]
    cases h : b.contains t.key with
    | true =>
      rw [insert_of_contains h]
      congr 1
      refine List.filter_congr fun u _ => ?_
      by_cases hu : u.key = t.key
      · simp [hu, h]
      · simp [hu]
    | false =>
      rw [toList_insert_of_new h, Bool.not_false, if_pos rfl, List.append_assoc, List.singleton_append]
      congr 2
      refine List.filter_congr fun u _ => ?_
      rw [contains_insert, Bool.not_or]

/-- The batch of a list holds the first todos of the list. -/
theorem toList_ofList (ts : List Todo) : (ofList ts).toList = Todo.firsts ts := by
  rw [ofList, toList_foldl_insert, toList_empty, List.nil_append]
  exact List.filter_eq_self.mpr fun t _ => rfl

/-- The first todos of two lists are those of the one, and those of the other whose keys are new. -/
theorem firsts_append (ts us : List Todo) :
    Todo.firsts (ts ++ us) =
      Todo.firsts ts ++ (Todo.firsts us).filter fun u => !(ofList ts).contains u.key := by
  rw [← toList_ofList, ofList, List.foldl_append, toList_foldl_insert]
  exact congrArg (· ++ _) (toList_ofList ts)

/-- A first todo of several lists is a first todo of one of them. -/
theorem exists_mem_firsts_of_flatMap {α : Type} {parts : List α} {f : α → List Todo} {t : Todo}
    (h : t ∈ Todo.firsts (parts.flatMap f)) : ∃ part ∈ parts, t ∈ Todo.firsts (f part) := by
  induction parts with
  | nil => cases h
  | cons part rest ih =>
    rw [List.flatMap_cons, firsts_append] at h
    rcases List.mem_append.mp h with hfirst | hrest
    · exact ⟨part, List.mem_cons_self, hfirst⟩
    · obtain ⟨other, hother, ht⟩ := ih (List.mem_filter.mp hrest).1
      exact ⟨other, List.mem_cons_of_mem part hother, ht⟩

/-- The batch of a list contains the keys of the list. -/
theorem contains_ofList (ts : List Todo) (key : String) :
    (ofList ts).contains key = (ts.map Todo.key).contains key := by
  rw [Bool.eq_iff_iff, contains_iff, toList_ofList, Todo.mem_keys_firsts, List.contains_iff_mem]

/-- A union inserts the todos of the second batch, one after the other. -/
theorem union_eq_foldl (a b : Batch) : a.union b = b.toList.foldl insert a := by
  rw [union, toList, List.foldl_map]
  congr 1
  funext c k
  rw [insert, of_todo]

/-- A union has the todos of both batches, the second as far as their keys are new. -/
theorem toList_union (a b : Batch) :
    (a.union b).toList = a.toList ++ b.toList.filter (fun t => !a.contains t.key) := by
  rw [union_eq_foldl, toList_foldl_insert, Todo.firsts_of_nodup b.nodup_keys_toList]

/-- A union contains what either batch contains. -/
theorem contains_union (a b : Batch) (key : String) :
    (a.union b).contains key = (a.contains key || b.contains key) := by
  rw [Bool.eq_iff_iff, contains_iff, toList_union, List.map_append, List.mem_append,
    Bool.or_eq_true, contains_iff, contains_iff]
  constructor
  · rintro (h | h)
    · exact Or.inl h
    · exact Or.inr ((List.filter_sublist.map Todo.key).subset h)
  · rintro (h | h)
    · exact Or.inl h
    · by_cases ha : key ∈ a.toList.map Todo.key
      · exact Or.inl ha
      · obtain ⟨t, ht, rfl⟩ := List.mem_map.mp h
        have hnew : a.contains t.key = false := by
          rw [← Bool.not_eq_true, contains_iff]
          exact ha
        exact Or.inr (List.mem_map_of_mem (List.mem_filter.mpr ⟨ht, by rw [hnew]; rfl⟩))

end Batch

/-! ## Sorting todos -/

namespace Batches

variable {reproduce : Todo → Option Todo} {expired abandoned : Todo → Bool}

/-- Puts a todo where it belongs: with those that are reproduced, and have expired or not, or with those that
are abandoned. -/
def put (reproduce : Todo → Option Todo) (expired abandoned : Todo → Bool) (b : Batches) (t : Todo) : Batches :=
  match reproduce t with
  | some u =>
    if expired u then { b with expired := b.expired.insert u } else { b with stable := b.stable.insert u }
  | none => if abandoned t then { b with remove := b.remove.insert t } else b

/-- Sorting todos inserts each of them into one of the three batches, or into none. -/
theorem foldl_put (ts : List Todo) (b : Batches) :
    ts.foldl (put reproduce expired abandoned) b =
      { stable := ((ts.filterMap reproduce).filter (!expired ·)).foldl Batch.insert b.stable
        expired := ((ts.filterMap reproduce).filter expired).foldl Batch.insert b.expired
        remove := (ts.filter fun t => (reproduce t).isNone && abandoned t).foldl Batch.insert b.remove } := by
  induction ts generalizing b with
  | nil => rfl
  | cons t rest ih =>
    rw [List.foldl_cons, ih, put, List.filter_cons]
    cases hreproduce : reproduce t with
    | none =>
      rw [List.filterMap_cons_none hreproduce]
      dsimp only
      cases abandoned t <;> rfl
    | some u =>
      rw [List.filterMap_cons_some hreproduce, List.filter_cons, List.filter_cons]
      dsimp only
      cases expired u <;> rfl

/-- The keys of reproduced todos are keys of the todos they were. -/
theorem keys_filterMap_sublist (hkey : ∀ t u, reproduce t = some u → u.key = t.key) (ts : List Todo) :
    ((ts.filterMap reproduce).map Todo.key).Sublist (ts.map Todo.key) := by
  induction ts with
  | nil => exact List.Sublist.refl _
  | cons t rest ih =>
    cases hreproduce : reproduce t with
    | none =>
      rw [List.filterMap_cons_none hreproduce]
      exact ih.cons t.key
    | some u =>
      rw [List.filterMap_cons_some hreproduce, List.map_cons, hkey t u hreproduce]
      exact ih.cons_cons t.key

/-- Todos with different keys are sorted without loss, in the order in which they were. -/
theorem toList_sorted (expired abandoned : Todo → Bool)
    (hkey : ∀ t u, reproduce t = some u → u.key = t.key) {ts : List Todo} (hnodup : (ts.map Todo.key).Nodup) :
    (ts.foldl (put reproduce expired abandoned) {}).stable.toList =
        (ts.filterMap reproduce).filter (!expired ·) ∧
      (ts.foldl (put reproduce expired abandoned) {}).expired.toList =
        (ts.filterMap reproduce).filter expired ∧
      (ts.foldl (put reproduce expired abandoned) {}).remove.toList =
        ts.filter fun t => (reproduce t).isNone && abandoned t := by
  have hreproduced := hnodup.sublist (keys_filterMap_sublist hkey ts)
  rw [foldl_put]
  refine ⟨?_, ?_, ?_⟩
  · refine (Batch.toList_ofList _).trans (Todo.firsts_of_nodup ?_)
    exact hreproduced.sublist (List.filter_sublist.map _)
  · refine (Batch.toList_ofList _).trans (Todo.firsts_of_nodup ?_)
    exact hreproduced.sublist (List.filter_sublist.map _)
  · refine (Batch.toList_ofList _).trans (Todo.firsts_of_nodup ?_)
    exact hnodup.sublist (List.filter_sublist.map _)

end Batches

namespace Batch

/-! ## Applying many entries -/

/-- Adding todos with different new keys puts them at the end, without what is never stored. -/
theorem toList_applyAll_add {live : Batch} {ts : List Todo} (hnodup : (ts.map Todo.key).Nodup)
    (hnew : ∀ t ∈ ts, live.contains t.key = false) :
    (live.applyAll (ts.map (⟨.add, ·⟩))).toList = live.toList ++ ts.map Todo.stored := by
  induction ts generalizing live with
  | nil => simp [applyAll]
  | cons t rest ih =>
    rw [List.map_cons, List.nodup_cons] at hnodup
    have hlist : (live.insert t.stored).toList = live.toList ++ [t.stored] :=
      toList_insert_of_new (hnew t List.mem_cons_self)
    have hrest : ∀ u ∈ rest, (live.insert t.stored).contains u.key = false := by
      intro u hu
      have hold := hnew u (List.mem_cons_of_mem t hu)
      rw [← Bool.not_eq_true, contains_iff] at hold ⊢
      rw [hlist, List.map_append, List.mem_append]
      rintro (h | h)
      · exact hold h
      · have hkey : u.key = t.key := by simpa using h
        exact hnodup.1 (hkey ▸ List.mem_map_of_mem hu)
    have hstep : live.applyAll ((t :: rest).map (⟨.add, ·⟩)) =
        (live.insert t.stored).applyAll (rest.map (⟨.add, ·⟩)) := rfl
    rw [hstep, ih hnodup.2 hrest, hlist, List.append_assoc]
    rfl

/-- Removing todos takes out all with their keys. -/
theorem toList_applyAll_remove (live : Batch) (ts : List Todo) :
    (live.applyAll (ts.map (⟨.remove, ·⟩))).toList =
      live.toList.filter fun t => !(ts.map Todo.key).contains t.key := by
  induction ts generalizing live with
  | nil =>
    rw [List.map_nil, applyAll, List.foldl_nil]
    exact (List.filter_eq_self.mpr fun t _ => rfl).symm
  | cons t rest ih =>
    have hstep : live.applyAll ((t :: rest).map (⟨.remove, ·⟩)) =
        (live.erase t.key).applyAll (rest.map (⟨.remove, ·⟩)) := rfl
    rw [hstep, ih, toList_erase, List.filter_filter]
    refine List.filter_congr fun u _ => ?_
    rw [List.map_cons, List.contains_cons, Bool.not_or, Bool.and_comm]

/-- Entries are applied one after the other. -/
theorem applyAll_append (live : Batch) (front back : List LogEntry) :
    live.applyAll (front ++ back) = (live.applyAll front).applyAll back :=
  List.foldl_append

/-- One more entry makes at most one more todo live. -/
theorem size_apply_le (live : Batch) (e : LogEntry) : (live.apply e).size ≤ live.size + 1 := by
  obtain ⟨op, t⟩ := e
  cases op with
  | add =>
    show (live.insert t.stored).size ≤ _
    rw [size_eq, size_eq, toList_insert]
    split
    · exact Nat.le_succ _
    · exact Nat.le_of_eq (List.length_append.trans rfl)
  | remove =>
    show (live.erase t.key).size ≤ _
    rw [size_eq, size_eq, toList_erase]
    exact Nat.le_succ_of_le (List.length_filter_le _ _)

/-- Entries make at most as many todos live as they are. -/
theorem size_applyAll_le (live : Batch) (entries : List LogEntry) :
    (live.applyAll entries).size ≤ live.size + entries.length := by
  induction entries generalizing live with
  | nil => exact Nat.le_refl _
  | cons e rest ih =>
    have hrest : (live.applyAll (e :: rest)).size ≤ (live.apply e).size + rest.length := ih _
    have hfirst := size_apply_le live e
    rw [List.length_cons]
    omega

/-- Of the todos of a batch, those that pass a test are known by their keys. -/
theorem contains_keys_filter {b : Batch} {t : Todo} (ht : t ∈ b.toList) (p : Todo → Bool) :
    ((b.toList.filter p).map Todo.key).contains t.key = p t := by
  rw [Bool.eq_iff_iff, List.contains_iff_mem, List.mem_map]
  constructor
  · rintro ⟨u, hu, hkey⟩
    obtain ⟨hmem, htest⟩ := List.mem_filter.mp hu
    rwa [eq_of_key_eq hmem ht hkey] at htest
  · intro htest
    exact ⟨t, List.mem_filter.mpr ⟨ht, htest⟩, rfl⟩

/-- Adding todos with different new keys, and then removing the old ones that pass a test. -/
theorem toList_applyAll_exchange {live : Batch} {ts : List Todo}
    (hnodup : (ts.map Todo.key).Nodup) (hnew : ∀ t ∈ ts, live.contains t.key = false)
    (p : Todo → Bool) :
    (live.applyAll (ts.map (⟨.add, ·⟩) ++ (live.toList.filter p).map (⟨.remove, ·⟩))).toList =
      live.toList.filter (!p ·) ++ ts.map Todo.stored := by
  rw [applyAll_append, toList_applyAll_remove, toList_applyAll_add hnodup hnew, List.filter_append]
  congr 1
  · exact List.filter_congr fun t ht => congrArg not (contains_keys_filter ht p)
  · refine List.filter_eq_self.mpr fun t ht => ?_
    obtain ⟨u, hu, rfl⟩ := List.mem_map.mp ht
    have hfresh := hnew u hu
    rw [← Bool.not_eq_true, contains_iff] at hfresh
    rw [Todo.key_stored, Bool.not_eq_true', ← Bool.not_eq_true, List.contains_iff_mem]
    exact fun hin => hfresh ((List.filter_sublist.map Todo.key).subset hin)

/-- After an entry only such todos are live as were so before, or as the entry adds. -/
theorem mem_toList_apply {live : Batch} {e : LogEntry} {t : Todo} (h : t ∈ (live.apply e).toList) :
    t ∈ live.toList ∨ e.op = .add ∧ t = e.todo.stored := by
  obtain ⟨op, u⟩ := e
  cases op with
  | add =>
    have hmem : t ∈ (live.insert u.stored).toList := h
    rw [toList_insert] at hmem
    split at hmem
    · exact .inl hmem
    · rcases List.mem_append.mp hmem with hlive | hnew
      · exact .inl hlive
      · exact .inr ⟨rfl, List.mem_singleton.mp hnew⟩
  | remove =>
    have hmem : t ∈ (live.erase u.key).toList := h
    rw [toList_erase] at hmem
    exact .inl (List.mem_filter.mp hmem).1

/-- After entries only such todos are live as were so before, or as the entries add. -/
theorem mem_toList_applyAll {live : Batch} {entries : List LogEntry} {t : Todo}
    (h : t ∈ (live.applyAll entries).toList) :
    t ∈ live.toList ∨ ∃ e ∈ entries, e.op = .add ∧ t = e.todo.stored := by
  induction entries generalizing live with
  | nil => exact .inl h
  | cons e rest ih =>
    rcases ih h with hafter | ⟨other, hother, hadds⟩
    · rcases mem_toList_apply hafter with hlive | hadds
      · exact .inl hlive
      · exact .inr ⟨e, List.mem_cons_self, hadds⟩
    · exact .inr ⟨other, List.mem_cons_of_mem e hother, hadds⟩

/-- Entries add no todo with a field that is never stored. -/
theorem stored_of_mem_applyAll {live : Batch} (hlive : ∀ t ∈ live.toList, t.stored = t)
    (entries : List LogEntry) : ∀ t ∈ (live.applyAll entries).toList, t.stored = t := by
  intro t ht
  rcases mem_toList_applyAll ht with hmem | ⟨e, -, -, rfl⟩
  · exact hlive t hmem
  · exact Todo.stored_stored e.todo

end Batch

namespace LogEntry

/-- A log has at least as many entries as live todos. -/
theorem size_live_le (entries : List LogEntry) : (live entries).size ≤ entries.length := by
  have h := Batch.size_applyAll_le .empty entries
  rwa [show Batch.empty.size = 0 from rfl, Nat.zero_add] at h

/-- The live todos of a log lack what is never stored. -/
theorem stored_of_mem_live {entries : List LogEntry} :
    ∀ t ∈ (live entries).toList, t.stored = t :=
  Batch.stored_of_mem_applyAll (fun t ht => by cases ht) entries

/-- A log that adds each todo of a batch, in order, has the batch as its live todos, as far as they
are stored. -/
theorem live_map_add {b : Batch} (h : ∀ t ∈ b.toList, t.stored = t) :
    live (b.toList.map (⟨.add, ·⟩)) = b := by
  apply Batch.ext_toList
  rw [live, Batch.toList_applyAll_add b.nodup_keys_toList (fun t _ => rfl), Batch.toList_empty,
    List.nil_append]
  exact (List.map_congr_left h).trans (List.map_id' b.toList)

end LogEntry

end LintDebt
