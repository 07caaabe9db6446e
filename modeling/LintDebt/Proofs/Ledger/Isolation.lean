import LintDebt.Proofs.Ledger.Faithful
import LintDebt.Proofs.Ledger.Twins

/-!
# Ledgers with and without the todos of other engines

An engine asks about candidates of its own.  As long as none of them has the key of a todo of another engine,
the entries that it makes a ledger append are about its own todos, and they are the same as if there were no
others.

* `LintDebt.Batch.ofEngine`, `LintDebt.Batch.ofOthers`: the todos of an engine, and all others.
* `LintDebt.LogEntry.Within`, `LintDebt.FileLedger.Within`: entries, and candidates in a scope, that are about
  the todos of an engine alone.
* `LintDebt.Batch.applyAll_within`: such entries leave the todos of other engines.
* `LintDebt.FileLedger.Beside`: a ledger, and one beside it that has the todos of the engine alone.
* `LintDebt.FileLedger.alike_write_beside`, `alike_sortOut_beside`, `alike_clear_beside`: operations within an
  engine go alike on both.
* `LintDebt.FileLedger.ofEngine`, `beside_ofEngine`: a ledger with all todos of other engines taken out.
-/

namespace LintDebt

variable {engine : String} {foreign : List Todo} {b : Batch} {t : Todo} {key : String}

/-! ## Todos of other engines -/

namespace Batch

/-- The todos of an engine. -/
def ofEngine (b : Batch) (engine : String) : Batch :=
  b.filter (·.engine == engine)

/-- The todos of all engines but one. -/
def ofOthers (b : Batch) (engine : String) : List Todo :=
  b.toList.filter fun t => !(t.engine == engine)

/-- A todo of another engine is one whose engine is another. -/
theorem mem_ofOthers : t ∈ b.ofOthers engine ↔ t ∈ b.toList ∧ t.engine ≠ engine := by
  rw [ofOthers, List.mem_filter, Bool.not_eq_true', beq_eq_false_iff_ne]

/-- A todo with the engine is one of the engine. -/
theorem mem_toList_ofEngine : t ∈ (b.ofEngine engine).toList ↔ t ∈ b.toList ∧ t.engine = engine := by
  rw [ofEngine, toList_filter, List.mem_filter, beq_iff_eq]

/-- A key that no todo of another engine has is that of a todo of the engine if it is that of any. -/
theorem contains_ofEngine (h : ∀ t ∈ b.ofOthers engine, t.key ≠ key) :
    (b.ofEngine engine).contains key = b.contains key := by
  rw [Bool.eq_iff_iff, contains_iff, contains_iff, List.mem_map, List.mem_map]
  constructor
  · rintro ⟨t, ht, rfl⟩
    exact ⟨t, (mem_toList_ofEngine.mp ht).1, rfl⟩
  · rintro ⟨t, ht, rfl⟩
    refine ⟨t, mem_toList_ofEngine.mpr ⟨ht, ?_⟩, rfl⟩
    by_contra hengine
    exact h t (mem_ofOthers.mpr ⟨ht, hengine⟩) rfl

end Batch

/-- An entry is about a todo of the engine, and none of these other todos has its key. -/
def LogEntry.Within (engine : String) (foreign : List Todo) (e : LogEntry) : Prop :=
  e.todo.engine = engine ∧ ∀ t ∈ foreign, t.key ≠ e.todo.key

namespace Batch

/-- An entry within an engine leaves the todos of the others, and does to its own what it would do without
them. -/
theorem apply_within {e : LogEntry} (h : e.Within engine (b.ofOthers engine)) :
    (b.apply e).ofOthers engine = b.ofOthers engine ∧
      (b.apply e).ofEngine engine = (b.ofEngine engine).apply e := by
  obtain ⟨op, u⟩ := e
  obtain ⟨hengine, hkey⟩ := h
  replace hengine : u.engine = engine := hengine
  replace hkey : ∀ t ∈ b.ofOthers engine, t.key ≠ u.key := hkey
  cases op with
  | add =>
    have hin : u.stored.key ∈ (b.ofEngine engine).keys ↔ u.stored.key ∈ b.keys := by
      rw [keys_eq, keys_eq, ← contains_iff, ← contains_iff, Todo.key_stored,
        contains_ofEngine hkey]
    constructor
    · show (b.insert u.stored).ofOthers engine = _
      rw [ofOthers, toList_insert]
      split
      · rfl
      · rw [List.filter_append]
        simp [ofOthers, Todo.stored, hengine]
    · show (b.insert u.stored).ofEngine engine = (b.ofEngine engine).insert u.stored
      apply ext_toList
      rw [toList_insert, ofEngine, toList_filter, toList_insert]
      by_cases hmem : u.stored.key ∈ b.keys
      · rw [if_pos hmem, if_pos (hin.mpr hmem), ofEngine, toList_filter]
      · rw [if_neg hmem, if_neg (mt hin.mp hmem), List.filter_append, ofEngine, toList_filter]
        simp [Todo.stored, hengine]
  | remove =>
    constructor
    · show (b.erase u.key).ofOthers engine = _
      rw [ofOthers, toList_erase, List.filter_filter, ofOthers]
      apply List.filter_congr
      intro t ht
      cases hother : t.engine == engine with
      | true => rfl
      | false =>
        have hne := hkey t (mem_ofOthers.mpr ⟨ht, beq_eq_false_iff_ne.mp hother⟩)
        rw [beq_eq_false_iff_ne.mpr hne]
        rfl
    · show (b.erase u.key).ofEngine engine = (b.ofEngine engine).erase u.key
      apply ext_toList
      rw [toList_erase, ofEngine, ofEngine, toList_filter, toList_filter, toList_erase,
        List.filter_filter, List.filter_filter]
      exact List.filter_congr fun t _ => Bool.and_comm _ _

/-- Entries within an engine leave the todos of the others, and do to its own what they would do without
them. -/
theorem applyAll_within {entries : List LogEntry}
    (h : ∀ e ∈ entries, e.Within engine (b.ofOthers engine)) :
    (b.applyAll entries).ofOthers engine = b.ofOthers engine ∧
      (b.applyAll entries).ofEngine engine = (b.ofEngine engine).applyAll entries := by
  induction entries generalizing b with
  | nil => exact ⟨rfl, rfl⟩
  | cons e rest ih =>
    obtain ⟨hothers, hown⟩ := apply_within (h e List.mem_cons_self)
    have hrest : ∀ e' ∈ rest, e'.Within engine ((b.apply e).ofOthers engine) := by
      rw [hothers]
      exact fun e' he' => h e' (List.mem_cons_of_mem e he')
    obtain ⟨hothers', hown'⟩ := ih hrest
    refine ⟨hothers'.trans hothers, hown'.trans ?_⟩
    rw [hown]
    rfl

end Batch

namespace FileLedger

variable {l l' m : FileLedger} {live : Batch} {candidates : Batch} {scope : Scope}

/-! ## Operations within an engine -/

/-- The candidates and their scope are of the engine, and none of these other todos has the key of a
candidate. -/
structure Within (engine : String) (foreign : List Todo) (candidates : Batch) (scope : Scope) :
    Prop where
  asks : scope.engine = engine
  own : ∀ c ∈ candidates.toList, c.engine = engine
  apart : ∀ t ∈ foreign, candidates.contains t.key = false

/-- Taking out a live todo of an engine is within the engine. -/
theorem remove_within (ht : t ∈ live.toList) (hengine : t.engine = engine) :
    LogEntry.Within engine (live.ofOthers engine) ⟨.remove, t⟩ := by
  refine ⟨hengine, ?_⟩
  intro u hu hkey
  obtain ⟨hmem, hother⟩ := Batch.mem_ofOthers.mp hu
  exact hother (Batch.eq_of_key_eq hmem ht hkey ▸ hengine)

namespace Within

variable (h : Within engine (live.ofOthers engine) candidates scope)

include h

/-- No todo of another engine has the key of a candidate. -/
theorem key_ne {c : Todo} (hc : c ∈ candidates.toList) : ∀ t ∈ live.ofOthers engine, t.key ≠ c.key := by
  intro t ht hkey
  have hin : candidates.contains t.key = true :=
    Batch.contains_iff.mpr (hkey ▸ List.mem_map_of_mem hc)
  exact absurd ((h.apart t ht).symm.trans hin) Bool.false_ne_true

/-- The same candidates are new without the todos of other engines. -/
theorem fresh_ofEngine : fresh candidates (live.ofEngine engine) = fresh candidates live := by
  apply List.filter_congr
  intro c hc
  rw [Batch.contains_ofEngine (h.key_ne hc)]

/-- The todos of other engines are never stale. -/
theorem stale_ofEngine : stale candidates scope (live.ofEngine engine) = stale candidates scope live := by
  rw [stale, stale, Batch.ofEngine, Batch.toList_filter, List.filter_filter]
  apply List.filter_congr
  intro t _
  rw [Scope.owns, h.asks]
  cases t.engine == engine <;> simp

/-- The todos of other engines are never reproduced. -/
theorem reproduced_ofEngine : reproduced candidates scope (live.ofEngine engine).toList =
    reproduced candidates scope live.toList := by
  have hnone (t : Todo) (ht : t ∈ live.toList) (hother : (t.engine == engine) = false) :
      matched candidates t = none :=
    matched_eq_none_iff.mpr
      (h.apart t (Batch.mem_ofOthers.mpr ⟨ht, beq_eq_false_iff_ne.mp hother⟩))
  rw [reproduced, reproduced, Batch.ofEngine, Batch.toList_filter, List.filter_filter,
    List.filterMap_filter, List.filterMap_filter]
  apply List.filterMap_congr
  intro t ht
  cases hother : t.engine == engine with
  | true => rw [Bool.and_true]
  | false =>
    rw [hnone t ht hother]
    simp

/-- The todos of other engines are never abandoned. -/
theorem abandoned_ofEngine : abandoned candidates scope (live.ofEngine engine).toList =
    abandoned candidates scope live.toList := by
  rw [abandoned, abandoned, Batch.ofEngine, Batch.toList_filter, List.filter_filter,
    List.filter_filter, List.filter_filter]
  apply List.filter_congr
  intro t _
  rw [Scope.owns, h.asks]
  cases t.engine == engine <;> simp

/-- What a write appends is within the engine. -/
theorem writeEntries_within : ∀ e ∈ l.writeEntries candidates scope live,
    e.Within engine (live.ofOthers engine) := by
  intro e he
  rcases List.mem_append.mp he with hadd | hremove
  · obtain ⟨t, ht, rfl⟩ := List.mem_map.mp hadd
    obtain ⟨c, hc, rfl⟩ := List.mem_map.mp ht
    have hmem := (List.mem_filter.mp hc).1
    refine ⟨?_, ?_⟩
    · show (l.date _ c).engine = engine
      rw [engine_date]
      exact h.own c hmem
    · show ∀ t ∈ live.ofOthers engine, t.key ≠ (l.date _ c).key
      rw [key_date]
      exact h.key_ne hmem
  · obtain ⟨t, ht, rfl⟩ := List.mem_map.mp hremove
    obtain ⟨hmem, htest⟩ := List.mem_filter.mp ht
    rw [Scope.owns, h.asks, Bool.and_right_comm, Bool.and_eq_true_iff] at htest
    exact remove_within hmem (beq_iff_eq.mp htest.2)

end Within

/-! ## Side by side -/

/-- A ledger has these live todos in its log; or it remembers them, which is enough as long as no log is to be
written anew. -/
def Retains (shortening : Prop) (m : FileLedger) (live : Batch) : Prop :=
  m.Coherent live ∨ ¬ shortening ∧ m.cache = some live

namespace Retains

variable {shortening : Prop}

/-- The live todos that are retained are those of the ledger. -/
theorem currentLive_eq (h : m.Retains shortening live) : m.currentLive = .ok live := by
  rcases h with hcoherent | ⟨-, hcache⟩
  · exact hcoherent.currentLive_eq
  · rw [currentLive, hcache]

/-- They are retained when they are read. -/
theorem remembering (h : m.Retains shortening live) : (m.remembering live).Retains shortening live :=
  h.imp Coherent.remembering fun hkept => ⟨hkept.1, rfl⟩

/-- What is appended is applied to what is retained. -/
theorem append {entries : List LogEntry} {files : FileTree} (h : m.Retains shortening live)
    (happend : m.files.append? m.storagePath (LogEntry.encode entries) = some files) :
    (m.appended files entries).Retains shortening (live.applyAll entries) := by
  refine h.imp (fun hcoherent => hcoherent.append happend) fun ⟨hkept, hcache⟩ => ⟨hkept, ?_⟩
  show m.cache.map _ = _
  rw [hcache]
  rfl

end Retains

/-- A ledger, and one beside it that has its live todos without those of other engines, which are these; the
other has them in its log when logs are to be written anew. -/
structure Beside (shortening : Prop) (engine : String) (foreign : List Todo) (l m : FileLedger) : Prop where
  aligned : Aligned l m
  live : ∃ live, l.currentLive = .ok live ∧ live.ofOthers engine = foreign ∧
    m.Retains shortening (live.ofEngine engine)

variable {shortening : Prop}

/-- Ledgers side by side stay so when both remember their live todos. -/
theorem Beside.remembering (h : Beside shortening engine foreign l m) (hcurrent : l.currentLive = .ok live) :
    Beside shortening engine foreign (l.remembering live) (m.remembering (live.ofEngine engine)) ∧
      live.ofOthers engine = foreign ∧ m.currentLive = .ok (live.ofEngine engine) := by
  obtain ⟨⟨hdir, htoday, hfiles, hlog⟩, found, hfound, hforeign, hretains⟩ := h
  obtain rfl := Except.ok.inj (hfound.symm.trans hcurrent)
  exact ⟨⟨⟨hdir, htoday, hfiles, hlog⟩, found, rfl, hforeign, hretains.remembering⟩, hforeign,
    hretains.currentLive_eq⟩

/-- Appending entries within the engine goes alike. -/
theorem alike_append_beside (h : Beside shortening engine foreign l m) (hcache : l.cache = some live)
    {entries : List LogEntry} (hentries : ∀ e ∈ entries, e.Within engine foreign) :
    Alike (Beside shortening engine foreign) (append entries) (append entries) l m := by
  apply alike_append_of_aligned h.aligned h entries
  intro files files' hfiles hfiles'
  obtain ⟨haligned, found, hfound, rfl, hretains⟩ := h
  have hcurrent : (l.appended files entries).currentLive = .ok (found.applyAll entries) := by
    unfold currentLive at hfound ⊢
    rw [hcache] at hfound
    rw [appended, hcache, ← Except.ok.inj hfound]
    rfl
  obtain ⟨hothers, hown⟩ := Batch.applyAll_within hentries
  refine ⟨haligned.append hfiles hfiles', _, hcurrent, hothers, ?_⟩
  rw [hown]
  exact hretains.append hfiles'

/-- Writing candidates within the engine goes alike. -/
theorem alike_write_beside (h : Beside shortening engine foreign l m)
    (hwithin : Within engine foreign candidates scope) :
    Alike (Beside shortening engine foreign) (write candidates scope) (write candidates scope) l m := by
  obtain ⟨live, hcurrent, -⟩ := h.live
  obtain ⟨hbeside, rfl, hcurrent'⟩ := h.remembering hcurrent
  rw [write_eq]
  refine alike_bind_of_yields (yields_liveTodos.mpr ⟨hcurrent, rfl⟩)
    (yields_liveTodos.mpr ⟨hcurrent', rfl⟩) (alike_get_bind ?_)
  have hentries : (m.remembering (live.ofEngine engine)).writeEntries candidates scope
      (live.ofEngine engine) = (l.remembering live).writeEntries candidates scope live := by
    rw [writeEntries, writeEntries, datedFresh, datedFresh, hwithin.fresh_ofEngine,
      hwithin.stale_ofEngine, date_congr hbeside.aligned.today]
  rw [hentries, hwithin.fresh_ofEngine, hwithin.stale_ofEngine]
  exact alike_bind (alike_append_beside hbeside rfl hwithin.writeEntries_within)
    fun _ _ _ _ _ hR => alike_pure hR _

/-- Sorting the live todos by candidates within the engine goes alike. -/
theorem alike_sortOut_beside (h : Beside shortening engine foreign l m)
    (hwithin : Within engine foreign candidates scope) :
    Alike (Beside shortening engine foreign) (sortOut candidates scope) (sortOut candidates scope) l m := by
  obtain ⟨live, hcurrent, -⟩ := h.live
  obtain ⟨hbeside, rfl, hcurrent'⟩ := h.remembering hcurrent
  obtain ⟨batches, hsort⟩ := exists_yields_sortOut hcurrent candidates scope
  obtain ⟨batches', hsort'⟩ := exists_yields_sortOut hcurrent' candidates scope
  obtain ⟨-, hstable, hexpired, hremove⟩ := toList_sortOut hcurrent hsort
  obtain ⟨-, hstable', hexpired', hremove'⟩ := toList_sortOut hcurrent' hsort'
  rw [hwithin.reproduced_ofEngine, isExpired_congr h.aligned.today] at hstable' hexpired'
  rw [hwithin.abandoned_ofEngine] at hremove'
  have hsame : batches' = batches := by
    obtain ⟨remove, stable, expired⟩ := batches
    obtain ⟨remove', stable', expired'⟩ := batches'
    rw [Batches.mk.injEq]
    exact ⟨Batch.ext_toList (hremove'.trans hremove.symm),
      Batch.ext_toList (hstable'.trans hstable.symm), Batch.ext_toList (hexpired'.trans hexpired.symm)⟩
  exact alike_of_yields hsort (hsame ▸ hsort') hbeside

/-- Taking out what was sorted out by candidates within the engine goes alike. -/
theorem alike_clear_beside {l' m' : FileLedger} {batches : Batches} (h : Beside shortening engine foreign l m)
    (hwithin : Within engine foreign candidates scope)
    (hsort : Yields (sortOut candidates scope) l batches l') (h' : Beside shortening engine foreign l' m') :
    Alike (Beside shortening engine foreign) (exchange .empty (batches.remove.union batches.expired))
      (exchange .empty (batches.remove.union batches.expired)) l' m' := by
  obtain ⟨live, hcurrent, rfl, -⟩ := h.live
  obtain ⟨rfl, -, hexpired, hremove⟩ := toList_sortOut hcurrent hsort
  unfold exchange
  refine alike_get_bind ?_
  rw [date_congr h'.aligned.today]
  apply alike_append_beside h' rfl
  intro e he
  -- nothing is added, and what is taken out are live todos of the engine
  obtain ⟨u, hu, rfl⟩ := List.mem_map.mp he
  obtain ⟨t, ht, hengine, hkey, hsame⟩ : ∃ t ∈ live.toList, t.engine = engine ∧ u.key = t.key ∧
      u.engine = t.engine := by
    rw [Batch.toList_union, hexpired, hremove] at hu
    rcases List.mem_append.mp hu with habandoned | hreproduced
    · obtain ⟨hcovered, htest⟩ := List.mem_filter.mp habandoned
      rw [Scope.owns, hwithin.asks, Bool.and_eq_true_iff] at htest
      exact ⟨u, (List.mem_filter.mp hcovered).1, beq_iff_eq.mp htest.1, rfl, rfl⟩
    · obtain ⟨t, ht, -, hmatch⟩ :=
        mem_reproduced.mp (List.mem_filter.mp (List.mem_filter.mp hreproduced).1).1
      refine ⟨t, ht, ?_, key_of_matched hmatch, ?_⟩
      · by_contra hother
        have hnone := matched_eq_none_iff.mpr (hwithin.apart t (Batch.mem_ofOthers.mpr ⟨ht, hother⟩))
        rw [hnone] at hmatch
        cases hmatch
      · obtain ⟨c, -, rfl⟩ := Option.map_eq_some_iff.mp hmatch
        rfl
  have hwithin' := remove_within ht hengine
  refine ⟨hsame.trans hengine, ?_⟩
  intro v hv
  rw [hkey]
  exact hwithin'.2 v hv

/-- Written anew, the logs of ledgers side by side leave them so, if the first remembers what its log
holds. -/
theorem Beside.compact {n : Nat} (h : Beside shortening engine foreign l m) (hshortening : shortening)
    (hfaithful : l.Faithful) (hy : Yields compact l n l') :
    ∃ n' m', Yields compact m n' m' ∧ Beside shortening engine foreign l' m' := by
  obtain ⟨haligned, live, hcurrent, hforeign, hretains⟩ := h
  have hcoherent := hretains.resolve_right fun hkept => hkept.1 hshortening
  obtain ⟨entries, hread, -⟩ := hcoherent.exists_readEntries
  obtain ⟨m', hm⟩ := exists_yields_compact hread
  obtain ⟨-, -, htwins⟩ := twins_compact hcoherent hm
  exact ⟨_, m', hm, ((aligned_compact hy).symm.trans haligned).trans htwins.aligned, live,
    hfaithful.currentLive_compact hcurrent hy, hforeign, .inl htwins.right⟩

/-! ## The todos of an engine alone -/

/-- The live todos that a log holds lack what is never stored. -/
theorem Reads.stored (h : l.Reads live) : ∀ t ∈ live.toList, t.stored = t := by
  unfold Reads at h
  cases hread : l.readEntries with
  | error e =>
    rw [hread] at h
    cases h
  | ok entries =>
    rw [hread] at h
    obtain rfl := Except.ok.inj h
    exact LogEntry.stored_of_mem_live

/-- A ledger whose log holds its live todos is faithful. -/
theorem Reads.faithful (h : l.Reads live) (hcurrent : l.currentLive = .ok live) : l.Faithful := by
  intro b hb
  rw [currentLive, hb] at hcurrent
  exact .inl (Except.ok.inj hcurrent ▸ h)

/-- The ledger with all todos of other engines taken out: it remembers the live todos of an engine, and its log, if
there is one, adds them and nothing else. -/
def ofEngine (l : FileLedger) (live : Batch) (engine : String) : FileLedger :=
  { l with
    files :=
      if l.files.isFile l.storagePath then
        (l.files.write? l.storagePath
          (LogEntry.encode ((live.ofEngine engine).toList.map (⟨.add, ·⟩)))).getD l.files
      else l.files
    cache := some (live.ofEngine engine) }

/-- Without a log there is nothing to write. -/
theorem ofEngine_of_none (hlog : l.files.contents? l.storagePath = none) :
    l.ofEngine live engine = { l with cache := some (live.ofEngine engine) } := by
  have hunlogged : ¬ l.files.isFile l.storagePath = true := by
    rw [FileTree.isFile, hlog]
    exact Bool.false_ne_true
  rw [ofEngine, if_neg hunlogged]

/-- A log is written anew. -/
theorem exists_ofEngine_of_some {held : Contents} (hlog : l.files.contents? l.storagePath = some held) :
    ∃ files, l.files.write? l.storagePath (LogEntry.encode ((live.ofEngine engine).toList.map (⟨.add, ·⟩))) =
        some files ∧
      l.ofEngine live engine = { l with files, cache := some (live.ofEngine engine) } := by
  have hlogged : l.files.isFile l.storagePath = true := by
    rw [FileTree.isFile, hlog]
    rfl
  obtain ⟨files, hwrite⟩ := FileTree.exists_update?_of_contents? isName_storageFile hlog fun _ =>
    .text (LogEntry.encode ((live.ofEngine engine).toList.map (⟨.add, ·⟩)))
  refine ⟨files, hwrite, ?_⟩
  rw [ofEngine, if_pos hlogged, show l.files.write? l.storagePath _ = some files from hwrite]
  rfl

/-- Only the log and what is remembered are others. -/
theorem aligned_ofEngine (l : FileLedger) (live : Batch) (engine : String) :
    Aligned l (l.ofEngine live engine) := by
  cases hlog : l.files.contents? l.storagePath with
  | none =>
    rw [ofEngine_of_none hlog]
    exact ⟨rfl, rfl, .refl _ _, rfl⟩
  | some held =>
    obtain ⟨files, hwrite, hrewritten⟩ := exists_ofEngine_of_some hlog
    rw [hrewritten]
    refine ⟨rfl, rfl, .of_update? hwrite, ?_⟩
    rw [FileTree.isFile, FileTree.isFile, FileTree.contents?_write? hwrite, hlog]
    rfl

/-- When the log holds the live todos, the other log holds those of the engine. -/
theorem coherent_ofEngine (hreads : l.Reads live) (engine : String) :
    (l.ofEngine live engine).Coherent (live.ofEngine engine) := by
  cases hlog : l.files.contents? l.storagePath with
  | none =>
    -- without a log nothing is live, neither of the engine nor of others
    obtain rfl : live = .empty := by
      unfold Reads at hreads
      rw [readEntries_of_none hlog] at hreads
      exact (Except.ok.inj hreads).symm
    rw [ofEngine_of_none hlog]
    refine ⟨hreads, fun b hb => (Option.some.inj hb).symm, fun s hs => ?_⟩
    cases hlog.symm.trans hs
  | some held =>
    obtain ⟨files, hwrite, hrewritten⟩ := exists_ofEngine_of_some hlog
    rw [hrewritten]
    refine coherent_of_write (fun t ht => ?_) hwrite fun b hb => (Option.some.inj hb).symm
    exact hreads.stored t (Batch.mem_toList_ofEngine.mp ht).1

/-- Beside every ledger stands the one with the todos of an engine alone, if the log of the first holds its live
todos or no log is to be written anew. -/
theorem beside_ofEngine (hcurrent : l.currentLive = .ok live) (hreads : shortening → l.Reads live)
    (engine : String) : Beside shortening engine (live.ofOthers engine) l (l.ofEngine live engine) := by
  refine ⟨aligned_ofEngine l live engine, live, hcurrent, rfl, ?_⟩
  by_cases hshortening : shortening
  · exact .inl (coherent_ofEngine (hreads hshortening) engine)
  · exact .inr ⟨hshortening, rfl⟩

end FileLedger

end LintDebt
