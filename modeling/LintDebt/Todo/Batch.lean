import LintDebt.Todo.Basic

/-!
# Batches of todos

A batch is a set of todos in the order in which they came.  Two todos with one key are the same
for a batch, and the first of them is kept.

* `LintDebt.Keyed`: a todo with its key, computed once.
* `LintDebt.Batch`: todos with different keys, in order.
* `LintDebt.Batch.insert`, `erase`, `get?`, `union`, `ofList`: the operations of a set.
-/

namespace LintDebt

/-- A todo with its key. -/
structure Keyed where
  todo : Todo
  key : String
  key_eq : key = todo.key

/-- A todo with its key. -/
def Keyed.of (t : Todo) : Keyed :=
  ⟨t, t.key, rfl⟩

/-- Todos with different keys, in the order in which they came. -/
structure Batch where
  entries : List Keyed
  nodup_keys : (entries.map Keyed.key).Nodup

namespace Batch

/-- The batch that holds nothing. -/
def empty : Batch :=
  ⟨[], List.nodup_nil⟩

instance : Inhabited Batch := ⟨empty⟩

/-- The keys of a batch, in order. -/
def keys (b : Batch) : List String :=
  b.entries.map Keyed.key

/-- The todos of a batch, in order. -/
def toList (b : Batch) : List Todo :=
  b.entries.map Keyed.todo

/-- How many todos a batch holds. -/
def size (b : Batch) : Nat :=
  b.entries.length

/-- Whether a batch holds nothing. -/
def isEmpty (b : Batch) : Bool :=
  b.entries.isEmpty

/-- Whether a batch holds a todo with the given key. -/
def contains (b : Batch) (key : String) : Bool :=
  b.keys.contains key

/-- The todo with the given key. -/
def get? (b : Batch) (key : String) : Option Todo :=
  (b.entries.find? (·.key == key)).map Keyed.todo

/-- Puts a todo with its key at the end, unless the key is there already. -/
def insertKeyed (b : Batch) (k : Keyed) : Batch :=
  if h : k.key ∈ b.keys then b
  else ⟨b.entries ++ [k], by
    simp only [List.map_append, List.map_cons, List.map_nil]
    exact List.nodup_append.mpr ⟨b.nodup_keys, by simp, by
      intro x hx y hy
      rw [List.mem_singleton] at hy
      subst hy
      exact fun e => h (e ▸ hx)⟩⟩

/-- Puts a todo at the end, unless one with its key is there already. -/
def insert (b : Batch) (t : Todo) : Batch :=
  b.insertKeyed (Keyed.of t)

/-- Keeps the todos whose entries pass a test. -/
def filterEntries (b : Batch) (keep : Keyed → Bool) : Batch :=
  ⟨b.entries.filter keep, b.nodup_keys.sublist (List.filter_sublist.map _)⟩

/-- Keeps the todos that pass a test. -/
def filter (b : Batch) (keep : Todo → Bool) : Batch :=
  b.filterEntries fun k => keep k.todo

/-- Takes the todo with the given key out. -/
def erase (b : Batch) (key : String) : Batch :=
  b.filterEntries fun k => !(k.key == key)

/-- Puts the todos of another batch at the end, as far as their keys are new. -/
def union (b other : Batch) : Batch :=
  other.entries.foldl insertKeyed b

/-- The batch of a list of todos. -/
def ofList (todos : List Todo) : Batch :=
  todos.foldl insert empty

@[simp] theorem toList_empty : empty.toList = [] := rfl

@[simp] theorem keys_empty : empty.keys = [] := rfl

/-- The keys of a batch are the keys of its todos. -/
theorem keys_eq (b : Batch) : b.keys = b.toList.map Todo.key := by
  simp only [keys, toList, List.map_map]
  exact List.map_congr_left fun k _ => k.key_eq

/-- A todo with a new key comes last; any other leaves the batch as it is. -/
theorem toList_insert (b : Batch) (t : Todo) :
    (b.insert t).toList = if t.key ∈ b.keys then b.toList else b.toList ++ [t] := by
  by_cases h : t.key ∈ b.keys <;> simp [insert, insertKeyed, Keyed.of, h, toList]

/-- Erasing keeps the todos with other keys. -/
theorem toList_erase (b : Batch) (key : String) :
    (b.erase key).toList = b.toList.filter (fun t => !(t.key == key)) := by
  simp only [erase, filterEntries, toList, List.filter_map]
  congr 1
  exact List.filter_congr fun k _ => by simp [k.key_eq]

end Batch

/-- What the ledger makes of the candidates of a file. -/
structure Batches where
  /-- Stored todos that no live error reproduces. -/
  remove : Batch := .empty
  /-- Stored todos that are reproduced, with the origin of their candidates. -/
  stable : Batch := .empty
  /-- Reproduced todos whose error date has come. -/
  expired : Batch := .empty

end LintDebt
