import LintDebt.Proofs.Todo.Batch
import Mathlib.Data.Nat.Find

/-!
# What the entries of a log found

A key lasts when an entry adds it and no later entry removes it.  Of the entries that do so, the first founds the
todo with this key.

* `LintDebt.LogEntry.OccursAt`: what the entry at a place does with a key.
* `LintDebt.LogEntry.LastsAt`: the entry at a place adds a key that is not removed later.
* `LintDebt.LogEntry.Founds`: the entry at a place is the first of these for its key.
* `LintDebt.LogEntry.founds_concat`: what one more entry founds, and what it undoes.
* `LintDebt.LogEntry.Lists`: all todos that were founded, in the order of their entries.
* `LintDebt.LogEntry.Lists.concat_add`, `concat_add_new`, `concat_remove`: the list after one more entry.
-/

namespace LintDebt.LogEntry

variable {entries : List LogEntry} {e : LogEntry} {op : LogOp} {key : String} {place : Nat} {t : Todo}

/-! ## Places -/

/-- The entry at a place does this with a key. -/
def OccursAt (entries : List LogEntry) (op : LogOp) (key : String) (place : Nat) : Prop :=
  ∃ t, entries[place]? = some ⟨op, t⟩ ∧ t.key = key

/-- The entry at a place adds a key, and no later entry removes it. -/
structure LastsAt (entries : List LogEntry) (key : String) (place : Nat) : Prop where
  adds : OccursAt entries .add key place
  unremoved : ∀ later, place < later → ¬ OccursAt entries .remove key later

/-- The entry at a place adds a todo, and it is the first that adds its key behind the last removal of
the key. -/
structure Founds (entries : List LogEntry) (place : Nat) (t : Todo) : Prop where
  adds : entries[place]? = some ⟨.add, t⟩
  lasts : LastsAt entries t.key place
  first : ∀ earlier, earlier < place → ¬ LastsAt entries t.key earlier

/-- Only places of the log have an entry. -/
theorem OccursAt.lt_length (h : OccursAt entries op key place) : place < entries.length := by
  obtain ⟨t, hat, -⟩ := h
  exact (List.getElem?_eq_some_iff.mp hat).1

/-- Only entries of the log found a todo. -/
theorem Founds.lt_length (h : Founds entries place t) : place < entries.length :=
  h.lasts.adds.lt_length

/-- A key that lasts was founded by the first of its entries that last. -/
theorem LastsAt.exists_founds (h : LastsAt entries key place) :
    ∃ place t, Founds entries place t ∧ t.key = key := by
  classical
  have hex : ∃ place, LastsAt entries key place := ⟨place, h⟩
  have hlasts := Nat.find_spec hex
  obtain ⟨t, hat, rfl⟩ := hlasts.adds
  exact ⟨Nat.find hex, t, ⟨hat, hlasts, fun earlier => Nat.find_min hex⟩, rfl⟩

/-- The entry behind a log, by its place. -/
theorem getElem?_concat_eq_some_iff {x : LogEntry} :
    (entries ++ [e])[place]? = some x ↔
      entries[place]? = some x ∨ (place = entries.length ∧ e = x) := by
  rcases Nat.lt_trichotomy place entries.length with h | h | h
  · rw [List.getElem?_append_left h]
    exact (or_iff_left fun hlast => absurd hlast.1 (Nat.ne_of_lt h)).symm
  · subst h
    simp
  · rw [List.getElem?_eq_none (by rw [List.length_append, List.length_singleton]; omega),
      List.getElem?_eq_none (Nat.le_of_lt h)]
    simp [Nat.ne_of_gt h]

/-- One more entry occurs behind the log. -/
theorem occursAt_concat :
    OccursAt (entries ++ [e]) op key place ↔
      OccursAt entries op key place ∨ (place = entries.length ∧ e.op = op ∧ e.todo.key = key) := by
  unfold OccursAt
  simp only [getElem?_concat_eq_some_iff]
  constructor
  · rintro ⟨t, hat | ⟨hplace, rfl⟩, hkey⟩
    · exact Or.inl ⟨t, hat, hkey⟩
    · exact Or.inr ⟨hplace, rfl, hkey⟩
  · rintro (⟨t, hat, hkey⟩ | ⟨hplace, rfl, hkey⟩)
    · exact ⟨t, Or.inl hat, hkey⟩
    · exact ⟨e.todo, Or.inr ⟨hplace, rfl⟩, hkey⟩

/-- One more entry lasts when it adds its key, and undoes what lasted when it removes it. -/
theorem lastsAt_concat :
    LastsAt (entries ++ [e]) key place ↔
      (LastsAt entries key place ∧ ¬ (e.op = .remove ∧ e.todo.key = key)) ∨
        (place = entries.length ∧ e.op = .add ∧ e.todo.key = key) := by
  constructor
  · rintro ⟨hadds, hunremoved⟩
    simp only [occursAt_concat] at hadds hunremoved
    rcases hadds with hadds | hlast
    · refine Or.inl ⟨⟨hadds, fun later hlater h => hunremoved later hlater (Or.inl h)⟩, fun h => ?_⟩
      exact hunremoved entries.length hadds.lt_length (Or.inr ⟨rfl, h⟩)
    · exact Or.inr hlast
  · rintro (⟨⟨hadds, hunremoved⟩, hkept⟩ | ⟨rfl, hop, hkey⟩)
    · refine ⟨occursAt_concat.mpr (Or.inl hadds), fun later hlater h => ?_⟩
      rcases occursAt_concat.mp h with h | ⟨-, h⟩
      · exact hunremoved later hlater h
      · exact hkept h
    · refine ⟨occursAt_concat.mpr (Or.inr ⟨rfl, hop, hkey⟩), fun later hlater h => ?_⟩
      have hlt := h.lt_length
      rw [List.length_append, List.length_singleton] at hlt
      omega

/-- One more entry founds its todo when it adds a key that does not last, and undoes what was founded
when it removes the key. -/
theorem founds_concat :
    Founds (entries ++ [e]) place t ↔
      (Founds entries place t ∧ ¬ (e.op = .remove ∧ e.todo.key = t.key)) ∨
        (place = entries.length ∧ e = ⟨.add, t⟩ ∧ ∀ earlier, ¬ LastsAt entries t.key earlier) := by
  constructor
  · rintro ⟨hat, hlasts, hfirst⟩
    rcases getElem?_concat_eq_some_iff.mp hat with hold | ⟨rfl, rfl⟩
    · left
      have hlt := (List.getElem?_eq_some_iff.mp hold).1
      obtain ⟨hlasts, hkept⟩ := (lastsAt_concat.mp hlasts).resolve_right fun h => by omega
      refine ⟨⟨hold, hlasts, fun earlier hearlier h => ?_⟩, hkept⟩
      exact hfirst earlier hearlier (lastsAt_concat.mpr (Or.inl ⟨h, hkept⟩))
    · right
      refine ⟨rfl, rfl, fun earlier h => ?_⟩
      refine hfirst earlier h.adds.lt_length (lastsAt_concat.mpr (Or.inl ⟨h, ?_⟩))
      rintro ⟨hop, -⟩
      cases hop
  · rintro (⟨⟨hat, hlasts, hfirst⟩, hkept⟩ | ⟨rfl, rfl, hnew⟩)
    · refine ⟨getElem?_concat_eq_some_iff.mpr (Or.inl hat), lastsAt_concat.mpr (Or.inl ⟨hlasts, hkept⟩),
        fun earlier hearlier h => ?_⟩
      rcases lastsAt_concat.mp h with ⟨h, -⟩ | ⟨rfl, -⟩
      · exact hfirst earlier hearlier h
      · have hlt := hlasts.adds.lt_length
        omega
    · refine ⟨getElem?_concat_eq_some_iff.mpr (Or.inr ⟨rfl, rfl⟩),
        lastsAt_concat.mpr (Or.inr ⟨rfl, rfl, rfl⟩), fun earlier hearlier h => ?_⟩
      rcases lastsAt_concat.mp h with ⟨h, -⟩ | ⟨rfl, -⟩
      · exact hnew earlier h
      · exact Nat.lt_irrefl _ hearlier

/-! ## What was founded -/

/-- The list names all places that found a todo, in order, each with its todo. -/
structure Lists (founded : List (Nat × Todo)) (entries : List LogEntry) : Prop where
  ordered : (founded.map Prod.fst).Pairwise (· < ·)
  mem_iff : ∀ place t, (place, t) ∈ founded ↔ Founds entries place t

/-- The keys that were founded are those that last. -/
theorem Lists.mem_keys_iff {founded : List (Nat × Todo)} (h : Lists founded entries) :
    key ∈ founded.map (fun f => f.2.key) ↔ ∃ place, LastsAt entries key place := by
  rw [List.mem_map]
  constructor
  · rintro ⟨⟨place, t⟩, hmem, rfl⟩
    exact ⟨place, ((h.mem_iff place t).mp hmem).lasts⟩
  · rintro ⟨place, hlasts⟩
    obtain ⟨place, t, hfounds, hkey⟩ := hlasts.exists_founds
    exact ⟨(place, t), (h.mem_iff place t).mpr hfounds, hkey⟩

/-- An entry that adds a key that lasts founds nothing. -/
theorem Lists.concat_add {founded : List (Nat × Todo)} (h : Lists founded entries)
    (hlive : t.key ∈ founded.map (fun f => f.2.key)) : Lists founded (entries ++ [⟨.add, t⟩]) := by
  refine ⟨h.ordered, fun place u => ?_⟩
  obtain ⟨earlier, hlasts⟩ := h.mem_keys_iff.mp hlive
  rw [h.mem_iff, founds_concat]
  constructor
  · exact fun hfounds => Or.inl ⟨hfounds, fun hremoves => by cases hremoves.1⟩
  · rintro (⟨hfounds, -⟩ | ⟨-, hentry, hnew⟩)
    · exact hfounds
    · cases hentry
      exact absurd hlasts (hnew earlier)

/-- An entry that adds a key that does not last founds its todo. -/
theorem Lists.concat_add_new {founded : List (Nat × Todo)} (h : Lists founded entries)
    (hnew : t.key ∉ founded.map (fun f => f.2.key)) :
    Lists (founded ++ [(entries.length, t)]) (entries ++ [⟨.add, t⟩]) := by
  constructor
  · rw [List.map_append, List.pairwise_append]
    refine ⟨h.ordered, List.pairwise_singleton _ _, fun place hplace last hlast => ?_⟩
    obtain ⟨⟨place, u⟩, hmem, rfl⟩ := List.mem_map.mp hplace
    rw [List.map_singleton, List.mem_singleton] at hlast
    subst hlast
    exact ((h.mem_iff place u).mp hmem).lt_length
  · intro place u
    rw [List.mem_append, List.mem_singleton, Prod.mk.injEq, h.mem_iff, founds_concat]
    constructor
    · rintro (hfounds | ⟨rfl, rfl⟩)
      · exact Or.inl ⟨hfounds, fun hremoves => by cases hremoves.1⟩
      · exact Or.inr ⟨rfl, rfl, fun earlier hlasts => hnew (h.mem_keys_iff.mpr ⟨earlier, hlasts⟩)⟩
    · rintro (⟨hfounds, -⟩ | ⟨rfl, hentry, -⟩)
      · exact Or.inl hfounds
      · cases hentry
        exact Or.inr ⟨rfl, rfl⟩

/-- An entry that removes a key undoes what founded it. -/
theorem Lists.concat_remove {founded : List (Nat × Todo)} (h : Lists founded entries) :
    Lists (founded.filter fun f => !(f.2.key == t.key)) (entries ++ [⟨.remove, t⟩]) := by
  constructor
  · exact h.ordered.sublist (List.filter_sublist.map _)
  · intro place u
    rw [List.mem_filter, h.mem_iff, founds_concat, Bool.not_eq_true', beq_eq_false_iff_ne]
    constructor
    · rintro ⟨hfounds, hkey⟩
      exact Or.inl ⟨hfounds, fun hremoves => hkey hremoves.2.symm⟩
    · rintro (⟨hfounds, hkept⟩ | ⟨-, hentry, -⟩)
      · exact ⟨hfounds, fun hkey => hkept ⟨rfl, hkey.symm⟩⟩
      · cases hentry

end LintDebt.LogEntry
