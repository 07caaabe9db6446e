import LintDebt.Ledger.File
import LintDebt.Proofs.Step

/-!
# Invariants of a ledger in a file

Every operation changes the ledger in at most three ways: it remembers the live todos, it appends
entries, or it writes the log anew.

* `LintDebt.FileLedger.Invariant`: a property that these three changes keep.
* `LintDebt.FileLedger.Invariant.ends_write`, `ends_sortOut`, `ends_exchange`, `ends_compact`: every
  operation keeps such a property, whether it answers or fails.
* `LintDebt.Run.settle_eq`, `LintDebt.Run.reconcile_eq`, `LintDebt.Run.yields_advance`: the steps of the work
  on one file, on any ledger.
* `LintDebt.Run.ends_formatter`: a whole run keeps such a property.
-/

namespace LintDebt

namespace FileLedger

/-- The ledger that remembers its live todos. -/
def remembering (l : FileLedger) (live : Batch) : FileLedger :=
  { l with cache := some live }

/-- The ledger with other files, in which entries were appended to the log. -/
def appended (l : FileLedger) (files : FileTree) (entries : List LogEntry) : FileLedger :=
  { l with files, cache := l.cache.map (·.applyAll entries) }

/-- The entries of a log that adds what is live and nothing else. -/
def kept (entries : List LogEntry) : List LogEntry :=
  (LogEntry.live entries).toList.map (⟨.add, ·⟩)

/-- The ledger with other files, in which the log was written anew. -/
def rewritten (l : FileLedger) (files : FileTree) (entries : List LogEntry) : FileLedger :=
  { l with files, cache := some (LogEntry.live (kept entries)) }

/-- A property that every change to a ledger keeps. -/
structure Invariant (P : FileLedger → Prop) : Prop where
  remember : ∀ {l live}, P l → l.currentLive = .ok live → P (l.remembering live)
  append : ∀ {l files entries}, P l → l.files.append? l.storagePath (LogEntry.encode entries) =
    some files → P (l.appended files entries)
  rewrite : ∀ {l files entries}, P l → l.readEntries = .ok entries →
    l.files.write? l.storagePath (LogEntry.encode (kept entries)) = some files →
    P (l.rewritten files entries)

/-! ## The steps -/

section Steps

variable {l l' : FileLedger}

/-- Asking for the live todos answers them, and the ledger remembers them. -/
theorem yields_liveTodos {live : Batch} :
    Yields liveTodos l live l' ↔ l.currentLive = .ok live ∧ l' = l.remembering live := by
  unfold liveTodos
  rw [yields_get_bind, yields_bind]
  constructor
  · rintro ⟨found, s, hfound, hrest⟩
    obtain ⟨hlive, rfl⟩ := LedgerM.yields_ofExcept.mp hfound
    obtain ⟨u, s', hmodify, hpure⟩ := yields_bind.mp hrest
    obtain ⟨rfl, rfl⟩ := yields_pure.mp hpure
    exact ⟨hlive, yields_modify.mp hmodify⟩
  · rintro ⟨hlive, rfl⟩
    refine ⟨live, l, LedgerM.yields_ofExcept.mpr ⟨hlive, rfl⟩, ?_⟩
    exact yields_bind.mpr ⟨(), _, yields_modify.mpr rfl, yields_pure.mpr ⟨rfl, rfl⟩⟩

/-- Appending no entries changes nothing; appending others changes the log and what is
remembered. -/
theorem yields_append {entries : List LogEntry} :
    Yields (append entries) l () l' ↔ if entries = [] then l' = l else
      ∃ files, l.files.append? l.storagePath (LogEntry.encode entries) = some files ∧
        l' = l.appended files entries := by
  unfold append
  cases entries with
  | nil =>
    rw [if_pos rfl]
    exact yields_pure.trans (and_iff_right rfl)
  | cons e rest =>
    rw [if_neg (List.cons_ne_nil e rest)]
    show Yields (get >>= _) l () l' ↔ _
    rw [yields_get_bind]
    cases happend : l.files.append? l.storagePath (LogEntry.encode (e :: rest)) with
    | none =>
      constructor
      · exact fun h => absurd h not_yields_throw
      · rintro ⟨files, hfiles, -⟩
        cases hfiles
    | some files =>
      constructor
      · intro h
        exact ⟨files, rfl, yields_set.mp h⟩
      · rintro ⟨files', hfiles, rfl⟩
        cases hfiles
        exact yields_set.mpr rfl

/-- Writes the log anew that holds some entries. -/
def rewrite (l : FileLedger) (entries : List LogEntry) : LedgerM FileLedger Nat :=
  if entries.isEmpty then pure 0
  else
    match l.files.write? l.storagePath (LogEntry.encode (kept entries)) with
    | none => throw (.file .writeStorage l.storagePath)
    | some files => do
      set (l.rewritten files entries)
      return entries.length - (LogEntry.live entries).size

/-- Writing the log anew, step by step. -/
theorem compact_eq :
    compact = get >>= fun l => LedgerM.ofExcept l.readEntries >>= l.rewrite := rfl

/-- A log without entries is left as it is, any other is written anew; the answer is by how much the log had
more entries than live todos. -/
theorem yields_rewrite {n : Nat} {entries : List LogEntry} :
    Yields (l.rewrite entries) l n l' ↔
      n = entries.length - (LogEntry.live entries).size ∧
        if entries = [] then l' = l else
          ∃ files, l.files.write? l.storagePath (LogEntry.encode (kept entries)) = some files ∧
            l' = l.rewritten files entries := by
  unfold rewrite
  cases entries with
  | nil => exact yields_pure
  | cons e rest =>
    rw [if_neg (List.cons_ne_nil e rest)]
    cases l.files.write? l.storagePath (LogEntry.encode (kept (e :: rest))) with
    | none =>
      constructor
      · exact fun h => absurd h not_yields_throw
      · rintro ⟨-, files, hfiles, -⟩
        cases hfiles
    | some files =>
      constructor
      · intro h
        obtain ⟨u, s, hset, hpure⟩ := yields_bind.mp h
        obtain ⟨hn, rfl⟩ := yields_pure.mp hpure
        exact ⟨hn, files, rfl, yields_set.mp hset⟩
      · rintro ⟨hn, files', hfiles, rfl⟩
        cases hfiles
        exact yields_bind.mpr ⟨(), _, yields_set.mpr rfl, yields_pure.mpr ⟨hn, rfl⟩⟩

/-- Writing the log anew needs a log that can be read. -/
theorem yields_compact {n : Nat} :
    Yields compact l n l' ↔
      ∃ entries, l.readEntries = .ok entries ∧ n = entries.length - (LogEntry.live entries).size ∧
        if entries = [] then l' = l else
          ∃ files, l.files.write? l.storagePath (LogEntry.encode (kept entries)) = some files ∧
            l' = l.rewritten files entries := by
  rw [compact_eq, yields_get_bind, yields_bind]
  constructor
  · rintro ⟨entries, s, hentries, h⟩
    obtain ⟨hread, rfl⟩ := LedgerM.yields_ofExcept.mp hentries
    exact ⟨entries, hread, yields_rewrite.mp h⟩
  · rintro ⟨entries, hread, h⟩
    exact ⟨entries, l, LedgerM.yields_ofExcept.mpr ⟨hread, rfl⟩, yields_rewrite.mpr h⟩

end Steps

namespace Invariant

variable {P : FileLedger → Prop} {l : FileLedger}

/-- Asking for the live todos keeps an invariant. -/
theorem ends_liveTodos (hP : Invariant P) (h : P l) : Ends P liveTodos l := by
  unfold liveTodos
  refine ends_get_bind (ends_bind (LedgerM.ends_ofExcept h _) fun live s hlive hs => ?_)
  obtain ⟨hcurrent, rfl⟩ := LedgerM.yields_ofExcept.mp hlive
  exact hP.remember hs hcurrent

/-- Appending entries keeps an invariant. -/
theorem ends_append (hP : Invariant P) (h : P l) (entries : List LogEntry) :
    Ends P (FileLedger.append entries) l := by
  unfold FileLedger.append
  split
  · exact h
  · refine ends_get_bind ?_
    split
    · exact h
    · next files hfiles => exact hP.append h hfiles

/-- Writing todos keeps an invariant. -/
theorem ends_write (hP : Invariant P) (h : P l) (candidates : Batch) (scope : Scope) :
    Ends P (write candidates scope) l := by
  refine ends_bind (hP.ends_liveTodos h) fun live s _ hs => ends_get_bind ?_
  exact ends_bind (hP.ends_append hs _) fun _ s' _ hs' => ends_pure hs' _

/-- Sorting the live todos keeps an invariant. -/
theorem ends_sortOut (hP : Invariant P) (h : P l) (candidates : Batch) (scope : Scope) :
    Ends P (sortOut candidates scope) l :=
  ends_bind (hP.ends_liveTodos h) fun _ _ _ hs => ends_get_bind (ends_pure hs _)

/-- Exchanging todos keeps an invariant. -/
theorem ends_exchange (hP : Invariant P) (h : P l) (add remove : Batch) :
    Ends P (exchange add remove) l :=
  ends_get_bind (hP.ends_append h _)

/-- Writing the log anew keeps an invariant. -/
theorem ends_compact (hP : Invariant P) (h : P l) : Ends P compact l := by
  rw [compact_eq]
  refine ends_get_bind (ends_bind (LedgerM.ends_ofExcept h _) fun entries s hentries hs => ?_)
  obtain ⟨hread, rfl⟩ := LedgerM.yields_ofExcept.mp hentries
  unfold FileLedger.rewrite
  split
  · exact hs
  · split
    · exact hs
    · next files hfiles => exact hP.rewrite hs hread hfiles

end Invariant

end FileLedger

/-! ## Runs -/

namespace Run

open FileLedger (Invariant)

variable {σ : Type} [Ledger σ] {P : FileLedger → Prop} {l : FileLedger}

/-- Writes the candidates in update mode. -/
def writeIf (o : RunOptions) (candidates : Batch) (scope : Scope) : RunM σ WriteSummary :=
  if o.updating then onLedger (Ledger.write candidates scope) else pure ⟨0, 0⟩

/-- Takes todos out of the ledger, if there are any. -/
def clear (stale : Batch) : RunM σ PUnit :=
  if stale.isEmpty then pure () else onLedger (Ledger.exchange .empty stale)

/-- What one file brings about once its candidates are written, if there is a log. -/
def settleIf (o : RunOptions) (candidates : Batch) (scope : Scope) (reads : List String)
    (written : WriteSummary) : RunM σ FileStep := do
  if Ledger.hasStorage (← get) then
    let step ← settle o candidates scope
    return { step with
      added := written.added, removed := written.removed + step.removed, reads }
  else return { added := written.added, removed := written.removed, reads }

/-- Without a log there is nothing to settle. -/
theorem yields_settleIf {o : RunOptions} {candidates : Batch} {scope : Scope} {reads : List String}
    {written : WriteSummary} {step : FileStep} {s s' : σ} :
    Yields (settleIf o candidates scope reads written) s step s' ↔
      (Ledger.hasStorage s = false ∧ s' = s ∧
        step = { added := written.added, removed := written.removed, reads }) ∨
      (Ledger.hasStorage s = true ∧ ∃ settled, Yields (settle o candidates scope) s settled s' ∧
        step = { settled with
          added := written.added, removed := written.removed + settled.removed, reads }) := by
  unfold settleIf
  rw [yields_get_bind]
  cases hlogged : Ledger.hasStorage s with
  | false =>
    rw [if_neg Bool.false_ne_true, yields_pure]
    simp [and_comm, eq_comm]
  | true =>
    rw [if_pos rfl, yields_bind]
    simp only [yields_pure]
    simp [eq_comm]

/-- What follows the writing of the candidates, step by step. -/
theorem settle_eq (o : RunOptions) (candidates : Batch) (scope : Scope) :
    (settle o candidates scope : RunM σ FileStep) =
      onLedger (Ledger.sortOut candidates scope) >>= fun batches =>
        (if o.cleaning then clear (batches.remove.union batches.expired) else pure ()) >>= fun _ =>
          get >>= fun s =>
            ofExcept (demotions s batches.stable.toList
              (if o.cleaning then {} else batches.remove.toList.foldl Changes.violate {})) >>=
              fun changes => pure (if o.cleaning then
                { changes, removed := (batches.remove.union batches.expired).size }
                else { changes }) := by
  unfold settle clear
  refine congrArg _ (funext fun batches => ?_)
  dsimp only
  cases o.cleaning with
  | true => cases (batches.remove.union batches.expired).isEmpty <;> rfl
  | false => rfl

/-- What follows the writing sorts the todos out, takes those out that are done with when the run cleans up, and
answers the changes that the others ask for. -/
theorem yields_settle {o : RunOptions} {candidates : Batch} {scope : Scope} {step : FileStep} {s s' : σ} :
    Yields (settle o candidates scope) s step s' ↔ ∃ batches s₁ u changes,
      Yields (Ledger.sortOut candidates scope) s batches s₁ ∧
      Yields (if o.cleaning then clear (batches.remove.union batches.expired) else pure ()) s₁ u s' ∧
      demotions s' batches.stable.toList
        (if o.cleaning then {} else batches.remove.toList.foldl Changes.violate {}) = .ok changes ∧
      step = if o.cleaning then { changes, removed := (batches.remove.union batches.expired).size }
        else { changes } := by
  rw [settle_eq, yields_bind]
  constructor
  · rintro ⟨batches, s₁, hsort, hrest⟩
    obtain ⟨u, s₂, hclear, hrest⟩ := yields_bind.mp hrest
    obtain ⟨changes, s₃, hdemotions, hpure⟩ := yields_bind.mp (yields_get_bind.mp hrest)
    obtain ⟨hchanges, rfl⟩ := yields_ofExcept.mp hdemotions
    obtain ⟨rfl, rfl⟩ := yields_pure.mp hpure
    exact ⟨batches, s₁, u, changes, yields_onLedger.mp hsort, hclear, hchanges, rfl⟩
  · rintro ⟨batches, s₁, u, changes, hsort, hclear, hchanges, rfl⟩
    refine ⟨batches, s₁, yields_onLedger.mpr hsort, yields_bind.mpr ⟨u, s', hclear, ?_⟩⟩
    apply yields_get_bind.mpr
    exact yields_bind.mpr ⟨changes, s', yields_ofExcept.mpr ⟨hchanges, rfl⟩, yields_pure.mpr ⟨rfl, rfl⟩⟩

/-- A result without a source path brings about nothing. -/
theorem reconcile_of_sourceless (o : RunOptions) (policy : DecayPolicy) (read : σ → String → Option String)
    {r : LintResult} (hsource : r.sourcePath.isEmpty = true) : reconcile o policy read r = pure {} := by
  unfold reconcile
  rw [if_pos hsource]

/-- The work on one file with a source path, step by step. -/
theorem reconcile_eq (o : RunOptions) (policy : DecayPolicy) (read : σ → String → Option String)
    {r : LintResult} (hsource : r.sourcePath.isEmpty = false) :
    reconcile o policy read r = get >>= fun s : σ =>
      let (candidates, reads) := Candidates.extract ⟨o.baseDir, o.engine, policy⟩ (read s) [r]
      let scope : Scope := ⟨o.engine, Path.relativeTo o.baseDir r.sourcePath, policy⟩
      writeIf o candidates scope >>= settleIf o candidates scope reads := by
  unfold reconcile writeIf
  rw [if_neg (by rw [hsource]; exact Bool.false_ne_true)]
  dsimp only
  refine congrArg (get >>= ·) (funext fun s => ?_)
  cases o.updating <;> rfl

/-- The progress after a file is that before it with what the file brings about, if there is such a file. -/
theorem yields_advance {o : RunOptions} {policy : DecayPolicy} {read : σ → String → Option String}
    {p q : Progress} {n : Nat} {s s' : σ} : Yields (advance o policy read p n) s q s' ↔
      (p.results[n]? = none ∧ q = p ∧ s' = s) ∨
        ∃ r step, p.results[n]? = some r ∧ Yields (reconcile o policy read r) s step s' ∧ q = p.add o step := by
  unfold advance
  constructor
  · intro hy
    split at hy
    · next hnone =>
      obtain ⟨rfl, rfl⟩ := yields_pure.mp hy
      exact .inl ⟨hnone, rfl, rfl⟩
    · next r hr =>
      obtain ⟨step, t, hstep, hpure⟩ := yields_bind.mp hy
      obtain ⟨rfl, rfl⟩ := yields_pure.mp hpure
      exact .inr ⟨r, step, hr, hstep, rfl⟩
  · rintro (⟨hnone, rfl, rfl⟩ | ⟨r, step, hr, hstep, rfl⟩)
    · rw [hnone]
      exact yields_pure.mpr ⟨rfl, rfl⟩
    · rw [hr]
      exact yields_bind.mpr ⟨step, s', hstep, yields_pure.mpr ⟨rfl, rfl⟩⟩

/-- The progress after a file that is there is that before it with what the file brings about. -/
theorem yields_advance_of_getElem? {o : RunOptions} {policy : DecayPolicy}
    {read : σ → String → Option String} {p q : Progress} {n : Nat} {s s' : σ} {r : LintResult}
    (hr : p.results[n]? = some r) : Yields (advance o policy read p n) s q s' ↔
      ∃ step, Yields (reconcile o policy read r) s step s' ∧ q = p.add o step := by
  rw [yields_advance, hr]
  simp

/-- Writing the candidates, or not, keeps an invariant. -/
theorem ends_writeIf (hP : Invariant P) (h : P l) (o : RunOptions) (candidates : Batch)
    (scope : Scope) : Ends P (writeIf o candidates scope) l := by
  unfold writeIf
  split
  · exact ends_onLedger (hP.ends_write h candidates scope)
  · exact h

/-- What follows the writing of the candidates keeps an invariant. -/
theorem ends_settle (hP : Invariant P) (h : P l) (o : RunOptions) (candidates : Batch)
    (scope : Scope) : Ends P (settle o candidates scope) l := by
  rw [settle_eq]
  refine ends_bind (ends_onLedger (hP.ends_sortOut h candidates scope)) fun batches s _ hs => ?_
  refine ends_bind ?_ fun _ s' _ hs' => ends_get_bind ?_
  · split
    · unfold clear
      split
      · exact hs
      · exact ends_onLedger (hP.ends_exchange hs _ _)
    · exact hs
  · exact ends_bind (ends_ofExcept hs' _) fun _ _ _ ht => ends_pure ht _

/-- The work on one file keeps an invariant. -/
theorem ends_reconcile (hP : Invariant P) (h : P l) (o : RunOptions) (policy : DecayPolicy)
    (read : FileLedger → String → Option String) (r : LintResult) :
    Ends P (reconcile o policy read r) l := by
  cases hsource : r.sourcePath.isEmpty with
  | true =>
    rw [reconcile_of_sourceless o policy read hsource]
    exact h
  | false =>
    rw [reconcile_eq o policy read hsource]
    refine ends_get_bind (ends_bind (ends_writeIf hP h o _ _) fun written s _ hs => ends_get_bind ?_)
    split
    · exact ends_bind (ends_settle hP hs o _ _) fun _ _ _ hs' => ends_pure hs' _
    · exact hs

/-- A whole run keeps an invariant, whether it answers or fails. -/
theorem ends_formatter (hP : Invariant P) (h : P l) (o : RunOptions)
    (read : FileLedger → String → Option String) (results : List LintResult) :
    Ends P (formatter o read results) l := by
  refine ends_get_bind (ends_bind (ends_ofExcept h _) fun (format, policy) s _ hs => ?_)
  have hadvance (p : Progress) (i : Nat) (t : FileLedger) (ht : P t) :
      Ends P (advance o policy read p i) t := by
    unfold advance
    split
    · exact ht
    · exact ends_bind (ends_reconcile hP ht o policy read _) fun _ _ _ ht' => ends_pure ht' _
  show Ends P (if o.compactOnly = true then _ else _) s
  split
  · exact ends_bind (ends_onLedger (hP.ends_compact hs)) fun _ _ _ hs' => ends_pure hs' _
  · exact ends_bind (ends_foldlM hadvance _ _ hs) fun _ _ _ hs' => ends_pure hs' _

end Run

end LintDebt
