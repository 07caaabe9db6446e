import LintDebt.Proofs.Alike
import LintDebt.Proofs.Ledger.Operations

/-!
# Runs on ledgers that answer the same

When two ledgers answer the same to what a run asks of them, and stay related, then so do whole runs on
them.  They need not do so for all candidates, if the run has none but those for which they do.

* `LintDebt.Run.AptFor`: the ledgers may be asked about a result.
* `LintDebt.Run.Simulates`: two kinds of ledgers answer the same to what a run asks.
* `LintDebt.Run.Simulates.alike_settle`, `alike_reconcile`: then the work on one file goes alike.
* `LintDebt.Run.Simulates.alike_formatter`: and so does a whole run.
* `LintDebt.FileLedger.HasRead`, `LintDebt.Run.alike_formatter_hasRead`: it does not matter to a run whether
  the live todos have been read before.
-/

namespace LintDebt.Run

variable {σ τ : Type} [Ledger σ] [Ledger τ]

/-- The candidates of a result, if it has a source, are such as a ledger may be asked about in the scope of
the result. -/
def AptFor (Apt : Batch → Scope → Prop) (o : RunOptions) (policy : DecayPolicy)
    (read : σ → String → Option String) (s : σ) (r : LintResult) : Prop :=
  r.sourcePath.isEmpty = false →
    Apt (Candidates.extract ⟨o.baseDir, o.engine, policy⟩ (read s) [r]).1
      ⟨o.engine, Path.relativeTo o.baseDir r.sourcePath, policy⟩

/-- Related ledgers answer the same to what a run asks of them, about candidates that they may be asked
about, and are related afterwards. -/
structure Simulates (Apt : Batch → Scope → Prop) (R : σ → τ → Prop) (o : RunOptions)
    (read : σ → String → Option String) (read' : τ → String → Option String) : Prop where
  configProblem : ∀ {s t}, R s t → Ledger.configProblem? s = Ledger.configProblem? t
  policy : ∀ {s t}, R s t →
    Ledger.policy s o.engine o.overrides = Ledger.policy t o.engine o.overrides
  hasStorage : ∀ {s t}, R s t → Ledger.hasStorage s = Ledger.hasStorage t
  severityCode : ∀ {s t}, R s t → Ledger.severityCode s = Ledger.severityCode t
  read : ∀ {s t}, R s t → read s = read' t
  write : ∀ {s t}, R s t → ∀ {candidates scope}, Apt candidates scope →
    Alike R (Ledger.write candidates scope) (Ledger.write candidates scope) s t
  sortOut : ∀ {s t}, R s t → ∀ {candidates scope}, Apt candidates scope →
    Alike R (Ledger.sortOut candidates scope) (Ledger.sortOut candidates scope) s t
  clear : ∀ {s t}, R s t → ∀ {candidates scope}, Apt candidates scope →
    ∀ {batches s' t'}, Yields (Ledger.sortOut candidates scope) s batches s' → R s' t' →
      Alike R (Ledger.exchange .empty (batches.remove.union batches.expired))
        (Ledger.exchange .empty (batches.remove.union batches.expired)) s' t'

namespace Simulates

variable {Apt : Batch → Scope → Prop} {R : σ → τ → Prop} {o : RunOptions}
  {read : σ → String → Option String} {read' : τ → String → Option String} {s : σ} {t : τ}

/-- Related ledgers are prepared for in the same way. -/
theorem prepare_eq (h : Simulates Apt R o read read') (hR : R s t) : prepare o s = prepare o t := by
  unfold prepare
  rw [h.configProblem hR, h.policy hR]

/-- Todos ask for the same demotions. -/
theorem demotions_eq (h : Simulates Apt R o read read') (hR : R s t) (ts : List Todo) (c : Changes) :
    demotions s ts c = demotions t ts c := by
  induction ts generalizing c with
  | nil => rfl
  | cons u rest ih => simp only [demotions, h.severityCode hR, ih]

/-- What follows the writing of the candidates goes alike. -/
theorem alike_settle (h : Simulates Apt R o read read') (hR : R s t) {candidates : Batch}
    {scope : Scope} (hapt : Apt candidates scope) :
    Alike R (settle o candidates scope) (settle o candidates scope) s t := by
  unfold settle
  refine alike_bind (alike_onLedger (h.sortOut hR hapt)) fun batches s' t' hsort _ hR' => ?_
  -- however much is cleared, the demotions are what follows
  have hchanges {s : σ} {t : τ} (hR : R s t) (c : Changes) (f : Changes → FileStep) :
      Alike R (get >>= fun s => ofExcept (demotions s batches.stable.toList c) >>= fun c => pure (f c))
        (get >>= fun t => ofExcept (demotions t batches.stable.toList c) >>= fun c => pure (f c))
        s t := by
    refine alike_get_bind ?_
    rw [h.demotions_eq hR]
    exact alike_bind (alike_ofExcept hR _) fun c _ _ _ _ hR' => alike_pure hR' (f c)
  dsimp only
  split
  · split
    · have hclear := h.clear hR hapt (yields_onLedger.mp hsort) hR'
      exact alike_bind (alike_onLedger hclear) fun _ _ _ _ _ hR'' => hchanges hR'' _ _
    · exact hchanges hR' _ _
  · exact hchanges hR' _ _

/-- What follows the writing of the candidates of a file goes alike. -/
theorem alike_afterwards (h : Simulates Apt R o read read') (hR : R s t) {candidates : Batch}
    {scope : Scope} (hapt : Apt candidates scope) (reads : List String) (written : WriteSummary) :
    Alike R
      (get >>= fun s => if Ledger.hasStorage s then
        settle o candidates scope >>= fun step => pure { step with
          added := written.added, removed := written.removed + step.removed, reads }
        else pure { added := written.added, removed := written.removed, reads })
      (get >>= fun t => if Ledger.hasStorage t then
        settle o candidates scope >>= fun step => pure { step with
          added := written.added, removed := written.removed + step.removed, reads }
        else pure { added := written.added, removed := written.removed, reads }) s t := by
  refine alike_get_bind ?_
  rw [h.hasStorage hR]
  split
  · exact alike_bind (h.alike_settle hR hapt) fun step _ _ _ _ hR' => alike_pure hR' _
  · exact alike_pure hR _

/-- The work on one file goes alike. -/
theorem alike_reconcile (h : Simulates Apt R o read read') (hR : R s t) {policy : DecayPolicy}
    {r : LintResult} (hapt : AptFor Apt o policy read s r) :
    Alike R (reconcile o policy read r) (reconcile o policy read' r) s t := by
  unfold reconcile
  split
  · exact alike_pure hR _
  · next hsource =>
    have hcandidates := hapt (Bool.eq_false_iff.mpr hsource)
    rw [h.read hR] at hcandidates
    refine alike_get_bind ?_
    rw [h.read hR]
    dsimp only
    split
    · exact alike_bind (alike_onLedger (h.write hR hcandidates)) fun written _ _ _ _ hR' =>
        h.alike_afterwards hR' hcandidates _ written
    · exact h.alike_afterwards hR hcandidates _ ⟨0, 0⟩

/-- The work on a file, as the results stand by then, goes alike. -/
theorem alike_advance (h : Simulates Apt R o read read') (hR : R s t) {policy : DecayPolicy}
    {p : Progress} {i : Nat} (hapt : ∀ r, p.results[i]? = some r → AptFor Apt o policy read s r) :
    Alike R (advance o policy read p i) (advance o policy read' p i) s t := by
  unfold advance
  split
  · exact alike_pure hR p
  · next r hr =>
    exact alike_bind (h.alike_reconcile hR (hapt r hr)) fun step _ _ _ _ hR' => alike_pure hR' _

/-- A run that does more than shorten the storage goes alike, when the ledgers may be asked about the results
as they stand when it is their turn. -/
theorem alike_formatter (h : Simulates Apt R o read read') (hR : R s t)
    (hcompact : o.compactOnly = false) (results : List LintResult)
    (hapt : ∀ format policy, prepare o s = .ok (format, policy) → ∀ i p s₁ r, i < results.length →
      Yields ((List.range i).foldlM (advance o policy read) { results }) s p s₁ →
        p.results[i]? = some r → AptFor Apt o policy read s₁ r) :
    Alike R (formatter o read results) (formatter o read' results) s t := by
  unfold formatter
  refine alike_get_bind ?_
  rw [h.prepare_eq hR] at hapt ⊢
  refine alike_bind (alike_ofExcept hR _) fun (format, policy) s' t' hs' _ hR' => ?_
  obtain ⟨hprepared, rfl⟩ := yields_ofExcept.mp hs'
  dsimp only
  rw [hcompact, if_neg Bool.false_ne_true, if_neg Bool.false_ne_true]
  refine alike_bind (alike_foldlM_range (fun i p s₁ t₁ hi hfirst hR₁ => ?_) hR')
    fun p _ _ _ _ hR'' => alike_pure hR'' _
  exact h.alike_advance hR₁ fun r hr => hapt format policy hprepared i p s₁ r hi hfirst hr

end Simulates

end LintDebt.Run

/-! ## Ledgers that have read their log -/

namespace LintDebt.FileLedger

variable {l m : FileLedger} {live : Batch}

/-- A ledger is as it was, or has read its live todos since. -/
def HasRead (l m : FileLedger) : Prop :=
  m = l ∨ ∃ live, l.currentLive = .ok live ∧ m = l.remembering live

/-- A ledger that has read its live todos has the same. -/
theorem HasRead.currentLive_eq (h : HasRead l m) : m.currentLive = l.currentLive := by
  rcases h with rfl | ⟨live, hcurrent, rfl⟩
  · rfl
  · exact hcurrent.symm

/-- Steps that ask for the live todos first are the same afterwards. -/
theorem alike_liveTodos_bind {α : Type} (h : HasRead l m) (f : Batch → LedgerM FileLedger α) :
    Alike HasRead (liveTodos >>= f) (liveTodos >>= f) l m := by
  rcases h with rfl | ⟨live, hcurrent, rfl⟩
  · exact ⟨rfl, .inl rfl⟩
  · exact alike_bind_of_yields (yields_liveTodos.mpr ⟨hcurrent, rfl⟩) (yields_liveTodos.mpr ⟨rfl, rfl⟩)
      ⟨rfl, .inl rfl⟩

/-- A ledger that has read its live todos answers the same to what a run asks. -/
theorem simulates_hasRead (o : RunOptions) {read : FileLedger → String → Option String}
    (hread : ∀ l live, read (l.remembering live) = read l) :
    Run.Simulates (fun _ _ => True) HasRead o read read where
  configProblem := by
    rintro l m (rfl | ⟨live, -, rfl⟩) <;> rfl
  policy := by
    rintro l m (rfl | ⟨live, -, rfl⟩) <;> rfl
  hasStorage := by
    rintro l m (rfl | ⟨live, -, rfl⟩) <;> rfl
  severityCode := by
    rintro l m (rfl | ⟨live, -, rfl⟩)
    · rfl
    · have hsame : (l.remembering live).severity = l.severity := severity_congr rfl
      show (fun t => (l.severity t).code) = fun t => ((l.remembering live).severity t).code
      rw [hsame]
  read := by
    rintro l m (rfl | ⟨live, -, rfl⟩)
    · rfl
    · exact (hread l live).symm
  write h _ _ _ := alike_liveTodos_bind h _
  sortOut h _ _ _ := alike_liveTodos_bind h _
  clear := by
    intro l m _ candidates scope _ batches l' m' hsort h'
    obtain ⟨live, hcurrent⟩ := exists_currentLive_of_sortOut hsort
    obtain ⟨rfl, -⟩ := toList_sortOut hcurrent hsort
    -- the todos have been read by now, so there is nothing that the other could have read since
    rcases h' with rfl | ⟨found, hfound, rfl⟩
    · exact ⟨rfl, .inl rfl⟩
    · obtain rfl := Except.ok.inj hfound
      exact ⟨rfl, .inl rfl⟩

end LintDebt.FileLedger

namespace LintDebt.Run

open FileLedger (HasRead)

variable {o : RunOptions} {read : FileLedger → String → Option String} {results : List LintResult}
  {l m m' : FileLedger} {live : Batch} {out : RunOutcome}

/-- A run goes alike whether the live todos have been read before or not. -/
theorem alike_formatter_hasRead (hread : ∀ l live, read (l.remembering live) = read l)
    (hcompact : o.compactOnly = false) (h : HasRead l m) :
    Alike HasRead (formatter o read results) (formatter o read results) l m :=
  (FileLedger.simulates_hasRead o hread).alike_formatter h hcompact results
    fun _ _ _ _ _ _ _ _ _ _ _ => trivial

/-- What a run answers once the live todos have been read, it answers without that. -/
theorem exists_yields_of_hasRead (hread : ∀ l live, read (l.remembering live) = read l)
    (hcompact : o.compactOnly = false) (h : HasRead l m) (hy : Yields (formatter o read results) m out m') :
    ∃ l', Yields (formatter o read results) l out l' ∧ HasRead l' m' := by
  obtain ⟨hsame, hafter⟩ := alike_formatter_hasRead hread hcompact h
  rw [show (formatter o read results).run.run m = (.ok out, m') from hy] at hsame hafter
  exact ⟨((formatter o read results).run.run l).2, Prod.ext hsame rfl, hafter⟩

/-- A run answers when it does so once the live todos have been read. -/
theorem exists_yields_of_remembering (hread : ∀ l live, read (l.remembering live) = read l)
    (hcompact : o.compactOnly = false) (hcurrent : l.currentLive = .ok live)
    (h : ((formatter o read results).run.run (l.remembering live)).1.isOk = true) :
    ∃ out l', Yields (formatter o read results) l out l' := by
  obtain ⟨out, m', hy⟩ := exists_yields_of_isOk h
  obtain ⟨l', hy', -⟩ := exists_yields_of_hasRead hread hcompact (.inr ⟨live, hcurrent, rfl⟩) hy
  exact ⟨out, l', hy'⟩

end LintDebt.Run
