import LintDebt.Ledger.Memory
import LintDebt.Proofs.Step
import LintDebt.Proofs.Todo.Batch

/-!
# What the operations of a ledger in memory do

The ledger in memory keeps its todos in a list, and its operations never fail.

* `LintDebt.Todo.bare`: a todo reduced to its identity and its snippet.
* `LintDebt.MemoryLedger.yields_write`, `yields_sortOut`, `yields_exchange`: what each operation answers and
  leaves.
-/

namespace LintDebt

namespace Todo

/-- A todo reduced to its identity and its snippet. -/
def bare (t : Todo) : Todo where
  engine := t.engine
  filePath := t.filePath
  ruleId := t.ruleId
  span := t.span
  snippet := t.snippet

variable {ts us : List Todo}

/-- The key belongs to what is left of a todo. -/
@[simp] theorem key_bare (t : Todo) : t.bare.key = t.key := rfl

/-- Todos that are the same but for dates and what is never stored have the same images under what looks at
nothing else. -/
theorem map_of_bare {α : Type} {f : Todo → α} (h : ts.map bare = us.map bare) (hf : ∀ t, f t = f t.bare) :
    ts.map f = us.map f := by
  have hbare (ts : List Todo) : ts.map f = (ts.map bare).map f := by
    rw [List.map_map]
    exact List.map_congr_left fun t _ => hf t
  rw [hbare, h, ← hbare]

/-- Such todos are kept by a test together, when it looks at nothing else. -/
theorem filter_bare (h : ts.map bare = us.map bare) {p : Todo → Bool} (hp : ∀ t, p t = p t.bare) :
    (ts.filter p).map bare = (us.filter p).map bare := by
  have hfilter (ts : List Todo) : (ts.filter p).map bare = (ts.map bare).filter p := by
    rw [List.filter_map]
    exact congrArg (List.map bare) (List.filter_congr fun t _ => hp t)
  rw [hfilter, h, ← hfilter]

/-- What is found for such todos is the same, when nothing else is looked at. -/
theorem filterMap_of_bare {α : Type} {f g : Todo → Option α} (h : ts.map bare = us.map bare)
    (hf : ∀ t, f t = f t.bare) (hfg : ∀ t, f t = g t) : ts.filterMap f = us.filterMap g := by
  have hbare (ts : List Todo) : ts.filterMap f = (ts.map bare).filterMap f := by
    rw [List.filterMap_map]
    exact congrArg (ts.filterMap ·) (funext hf)
  rw [hbare, h, ← hbare, show f = g from funext hfg]

end Todo

namespace MemoryLedger

variable {m m' : MemoryLedger} {candidates : Batch} {scope : Scope}

/-- The todos that a write leaves: those that are not of the scope and its engine, or that a candidate
reproduces. -/
def keptBy (m : MemoryLedger) (candidates : Batch) (scope : Scope) : List Todo :=
  m.todos.filter fun t => !(scope.covers t && scope.owns t && !candidates.contains t.key)

/-- The candidates that a write adds: those with new keys. -/
def freshIn (m : MemoryLedger) (candidates : Batch) : List Todo :=
  candidates.toList.filter fun c => !(m.todos.map Todo.key).contains c.key

/-- A write takes out the todos of the scope and its engine that no candidate reproduces, and puts the
candidates with new keys at the end. -/
theorem yields_write {summary : WriteSummary} : Yields (write candidates scope) m summary m' ↔
    summary = ⟨(m.freshIn candidates).length, m.todos.length - (m.keptBy candidates scope).length⟩ ∧
      m' = { m with
        todos := m.keptBy candidates scope ++ (m.freshIn candidates).map ({ · with origin := none })
        storage := true
        calls := m.calls ++ [.write] } := by
  have hfresh : (candidates.filterEntries fun c => !(m.todos.map Todo.key).contains c.key).toList =
      m.freshIn candidates := Batch.toList_filterEntries _ _
  unfold write
  rw [yields_get_bind]
  dsimp only
  rw [hfresh, yields_bind]
  constructor
  · rintro ⟨u, s, hset, hpure⟩
    obtain ⟨rfl, rfl⟩ := yields_pure.mp hpure
    exact ⟨rfl, yields_set.mp hset⟩
  · rintro ⟨rfl, rfl⟩
    exact ⟨(), _, yields_set.mpr rfl, yields_pure.mpr ⟨rfl, rfl⟩⟩

/-- A todo as its candidate reproduces it, if one does. -/
def matched (candidates : Batch) (t : Todo) : Option Todo :=
  (candidates.get? t.key).map fun c => { t with origin := c.origin }

/-- A todo is not reproduced when the candidates do not contain its key. -/
theorem isNone_matched (candidates : Batch) (t : Todo) :
    (matched candidates t).isNone = !candidates.contains t.key := by
  rw [matched, Option.isNone_map, Batch.contains_eq_isSome_find?, Batch.get?_eq_find?]
  cases candidates.toList.find? (·.key == t.key) <;> rfl

/-- Sorting puts a todo where its candidate says. -/
theorem sortOne_eq (m : MemoryLedger) (candidates : Batch) (scope : Scope) :
    m.sortOne candidates scope =
      Batches.put (matched candidates) (fun t => m.expiredRules.contains t.ruleId) scope.owns := by
  funext b t
  unfold sortOne Batches.put matched
  cases candidates.get? t.key <;> rfl

/-- When no todo expires, sorting answers the todos of the scope that the candidates reproduce, and those of its
engine that they do not, in the order in which they were. -/
theorem yields_sortOut (hrules : m.expiredRules = []) (hnodup : (m.todos.map Todo.key).Nodup)
    (candidates : Batch) (scope : Scope) :
    ∃ batches, Yields (sortOut candidates scope) m batches m ∧
      batches.stable.toList = (m.todos.filter scope.covers).filterMap (matched candidates) ∧
      batches.expired.toList = [] ∧
      batches.remove.toList =
        (m.todos.filter scope.covers).filter fun t => scope.owns t && !candidates.contains t.key := by
  have hkey (t u : Todo) (hu : matched candidates t = some u) : u.key = t.key := by
    obtain ⟨c, -, rfl⟩ := Option.map_eq_some_iff.mp hu
    rfl
  obtain ⟨hstable, hexpired, hremove⟩ := Batches.toList_sorted (fun t => m.expiredRules.contains t.ruleId)
    scope.owns hkey (hnodup.sublist ((List.filter_sublist (p := scope.covers)).map Todo.key))
  refine ⟨_, yields_get_bind.mpr (yields_pure.mpr ⟨rfl, rfl⟩), ?_, ?_, ?_⟩
  · rw [sortOne_eq, hstable, hrules]
    exact List.filter_eq_self.mpr fun t _ => rfl
  · rw [sortOne_eq, hexpired, hrules]
    exact List.filter_eq_nil_iff.mpr fun t _ => Bool.false_ne_true
  · rw [sortOne_eq, hremove]
    refine List.filter_congr fun t _ => ?_
    rw [isNone_matched, Bool.and_comm]

/-- Removing todos takes out all with their keys. -/
theorem yields_exchange {remove : Batch} {u : Unit} : Yields (exchange .empty remove) m u m' ↔
    m' = { m with
      todos := m.todos.filter fun t => !remove.contains t.key
      storage := true
      calls := m.calls ++ [.exchange] } := by
  unfold exchange
  rw [yields_get_bind]
  refine yields_set.trans ?_
  rw [Batch.toList_empty, List.append_nil]

end MemoryLedger

end LintDebt
