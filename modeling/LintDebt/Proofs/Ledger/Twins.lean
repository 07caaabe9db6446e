import LintDebt.Proofs.Alike
import LintDebt.Proofs.Ledger.Compaction

/-!
# What ledgers with the same live todos answer

Twins whose logs differ in length answer the same to every request, and their logs go on to differ by as
much, until they are written anew.

* `LintDebt.FileLedger.Apart`: twins, and by how much the log of the first is longer.
* `LintDebt.FileLedger.alike_write`, `alike_sortOut`, `alike_exchange`: their operations go alike.
* `LintDebt.FileLedger.Apart.exists_compact`: what they answer when their logs are written anew.
-/

namespace LintDebt.FileLedger

variable {l m : FileLedger} {live : Batch} {entries : List LogEntry} {d : Nat}

/-- Twins, of which the first has so many entries more in its log. -/
structure Apart (d : Nat) (l m : FileLedger) : Prop where
  twins : ∃ live, Twins l m live
  logLength : l.logLength = m.logLength + d

/-! ## Operations -/

/-- Twins have the same live todos. -/
theorem Twins.currentLive_eq (h : Twins l m live) :
    l.currentLive = .ok live ∧ m.currentLive = .ok live :=
  ⟨h.left.currentLive_eq, h.right.currentLive_eq⟩

/-- Asking for the live todos goes alike. -/
theorem alike_liveTodos (h : Apart d l m) : Alike (Apart d) liveTodos liveTodos l m := by
  obtain ⟨⟨live, htwins⟩, hlength⟩ := h
  obtain ⟨hleft, hright⟩ := htwins.currentLive_eq
  unfold liveTodos
  refine alike_get_bind ?_
  rw [hleft, hright]
  exact ⟨rfl, ⟨live, htwins.remembering⟩, hlength⟩

/-- Appending goes alike on ledgers side by side that stay related when the entries are appended. -/
theorem alike_append_of_aligned {R : FileLedger → FileLedger → Prop} (h : Aligned l m) (hR : R l m)
    (entries : List LogEntry)
    (hafter : ∀ files files', l.files.append? l.storagePath (LogEntry.encode entries) = some files →
      m.files.append? m.storagePath (LogEntry.encode entries) = some files' →
        R (l.appended files entries) (m.appended files' entries)) :
    Alike R (append entries) (append entries) l m := by
  unfold append
  split
  · exact alike_pure hR _
  · refine alike_get_bind ?_
    -- whether the log can be written does not depend on what it holds
    have hboth : (m.files.append? m.storagePath (LogEntry.encode entries)).isSome =
        (l.files.append? l.storagePath (LogEntry.encode entries)).isSome := h.isSome_update? _ _
    cases hfiles : l.files.append? l.storagePath (LogEntry.encode entries) with
    | none =>
      rw [hfiles, Option.isSome_none, Option.isSome_eq_false_iff, Option.isNone_iff_eq_none] at hboth
      rw [hboth, h.storagePath_eq]
      exact alike_throw hR _
    | some files =>
      rw [hfiles, Option.isSome_some, Option.isSome_iff_exists] at hboth
      obtain ⟨files', hfiles'⟩ := hboth
      rw [hfiles']
      exact alike_set (hafter files files' hfiles hfiles')

/-- Appending goes alike. -/
theorem alike_append (h : Apart d l m) (entries : List LogEntry) :
    Alike (Apart d) (append entries) (append entries) l m := by
  obtain ⟨⟨live, htwins⟩, hlength⟩ := h
  refine alike_append_of_aligned htwins.aligned ⟨⟨live, htwins⟩, hlength⟩ entries
    fun files files' hfiles hfiles' => ⟨⟨_, htwins.append hfiles hfiles'⟩, ?_⟩
  rw [htwins.left.logLength_appended hfiles, htwins.right.logLength_appended hfiles', hlength]
  omega

/-- Twins are on the same day. -/
theorem Apart.today_eq (h : Apart d l m) : m.today = l.today := by
  obtain ⟨⟨live, htwins⟩, -⟩ := h
  exact htwins.today

/-- Writing goes alike. -/
theorem alike_write (h : Apart d l m) (candidates : Batch) (scope : Scope) :
    Alike (Apart d) (write candidates scope) (write candidates scope) l m := by
  rw [write_eq]
  refine alike_bind (alike_liveTodos h) fun live l' m' _ _ h' => alike_get_bind ?_
  have hentries : m'.writeEntries candidates scope live = l'.writeEntries candidates scope live := by
    rw [writeEntries, writeEntries, datedFresh, datedFresh, date_congr h'.today_eq]
  rw [hentries]
  exact alike_bind (alike_append h' _) fun _ _ _ _ _ h'' => alike_pure h'' _

/-- Sorting the live todos goes alike. -/
theorem alike_sortOut (h : Apart d l m) (candidates : Batch) (scope : Scope) :
    Alike (Apart d) (sortOut candidates scope) (sortOut candidates scope) l m := by
  refine alike_bind (alike_liveTodos h) fun live l' m' _ _ h' => alike_get_bind ?_
  have hsort : m'.sortOne = l'.sortOne := by
    unfold sortOne
    rw [isExpired_congr h'.today_eq]
  rw [hsort]
  exact alike_pure h' _

/-- Exchanging goes alike. -/
theorem alike_exchange (h : Apart d l m) (add remove : Batch) :
    Alike (Apart d) (exchange add remove) (exchange add remove) l m := by
  unfold exchange
  refine alike_get_bind ?_
  rw [date_congr h.today_eq]
  exact alike_append h _

/-- Opened anew, twins stay as far apart. -/
theorem Apart.openIn (h : Apart d l m) (day : Date) :
    Apart d (.openIn l.files l.baseDir day) (.openIn m.files m.baseDir day) := by
  obtain ⟨⟨live, htwins⟩, hlength⟩ := h
  exact ⟨⟨live, htwins.openIn day⟩, hlength⟩

/-- A ledger is as far apart from what it is when its log was written anew as entries were dropped. -/
theorem apart_compact {n : Nat} (h : l.Coherent live) (hy : Yields compact l n m) : Apart n l m := by
  obtain ⟨hn, hshort, htwins⟩ := twins_compact h hy
  have hle := h.size_le_logLength
  exact ⟨⟨live, htwins⟩, by rw [hn, hshort]; omega⟩

/-- When the logs of twins are written anew, from the first are dropped as many entries more as it had more,
and afterwards both are as long. -/
theorem Apart.exists_compact (h : Apart d l m) :
    ∃ n l' m', Yields compact l (n + d) l' ∧ Yields compact m n m' ∧ Apart 0 l' m' := by
  obtain ⟨⟨live, htwins⟩, hlength⟩ := h
  obtain ⟨old, hold, -⟩ := htwins.left.exists_readEntries
  obtain ⟨new, hnew, -⟩ := htwins.right.exists_readEntries
  obtain ⟨l', hl⟩ := exists_yields_compact hold
  obtain ⟨m', hm⟩ := exists_yields_compact hnew
  -- Each log shrinks to the live todos, of which both ledgers have the same.
  obtain ⟨hn, hshort, htwins₁⟩ := twins_compact htwins.left hl
  obtain ⟨hn', hshort', htwins₂⟩ := twins_compact htwins.right hm
  have hle := htwins.right.size_le_logLength
  rw [hn] at hl
  rw [hn'] at hm
  refine ⟨_, l', m', ?_, hm, ⟨live, (htwins₁.symm.trans htwins).trans htwins₂⟩, ?_⟩
  · rwa [show l.logLength - live.size = m.logLength - live.size + d by omega] at hl
  · rw [hshort, hshort', Nat.add_zero]

end LintDebt.FileLedger
