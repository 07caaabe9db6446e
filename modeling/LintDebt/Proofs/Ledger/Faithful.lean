import LintDebt.Proofs.Ledger.Operations
import LintDebt.Proofs.Log.Continued

/-!
# What a ledger remembers of any log

A log may come from elsewhere, and its last line may lack an end.  Then it can become unreadable when
entries are appended; but it never reads as something else than what the ledger remembers.

* `LintDebt.FileLedger.Faithful`: what is remembered is what the log holds, or the log cannot be read.
* `LintDebt.FileLedger.invariant_faithful`: every operation keeps a ledger faithful, on any log.
* `LintDebt.FileLedger.Faithful.eq_of_reads`: a faithful ledger has the live todos that its log holds.
* `LintDebt.FileLedger.Faithful.currentLive_compact`: writing the log anew leaves the live todos.
-/

namespace LintDebt.FileLedger

variable {l l' : FileLedger} {live other : Batch} {files : FileTree} {entries : List LogEntry}

/-- What the ledger remembers is what its log holds; or its log cannot be read, and as it ends with a whole
line, nothing that is appended changes that. -/
def Faithful (l : FileLedger) : Prop :=
  ∀ b ∈ l.cache, l.Reads b ∨ (l.EndsWhole ∧ ∀ other, ¬ l.Reads other)

/-- A ledger that remembers nothing is faithful. -/
theorem faithful_openIn (files : FileTree) (baseDir : String) (today : Date) :
    (openIn files baseDir today).Faithful := by
  intro b hb
  cases hb

/-! ## Changes -/

/-- A log that can be read holds live todos. -/
theorem reads_of_readEntries (h : l.readEntries = .ok entries) : l.Reads (LogEntry.live entries) := by
  unfold Reads
  rw [h]
  rfl

/-- A log that ends with a whole line and cannot be read stays so when entries are appended. -/
theorem not_reads_appended (hends : l.EndsWhole) (hnone : ∀ other, ¬ l.Reads other)
    (happend : l.files.append? l.storagePath (LogEntry.encode entries) = some files) :
    ¬ (l.appended files entries).Reads other := by
  intro hreads
  unfold Reads at hreads
  rw [appended, readEntries_of_append hends happend] at hreads
  cases hread : l.readEntries with
  | error e =>
    rw [hread] at hreads
    cases hreads
  | ok old =>
    exact hnone _ (reads_of_readEntries hread)

/-- A log whose last line has no end holds, when entries are appended, also these, or it cannot be read and
ends with a whole line. -/
theorem reads_appended (hends : ¬ l.EndsWhole) (hreads : l.Reads live)
    (happend : l.files.append? l.storagePath (LogEntry.encode entries) = some files) :
    (l.appended files entries).Reads (live.applyAll entries) ∨
      ((l.appended files entries).EndsWhole ∧ ∀ other, ¬ (l.appended files entries).Reads other) := by
  obtain ⟨s, hs, hline⟩ : ∃ s, l.files.contents? l.storagePath = some (.text s) ∧
      ¬ LintDebt.Text.EndsLine s := by
    unfold EndsWhole at hends
    push Not at hends
    exact hends
  have hfound : files.contents? l.storagePath = some (.text (s ++ LogEntry.encode entries)) := by
    rw [FileTree.contents?_append? happend, hs]
    rfl
  have hread : (l.appended files entries).readEntries =
      (LogEntry.decode (s ++ LogEntry.encode entries)).mapError (.corrupt l.storagePath) :=
    readEntries_of_text (l := l.appended files entries) hfound
  unfold Reads at hreads
  rw [readEntries_of_text hs] at hreads
  cases hold : LogEntry.decode s with
  | error k =>
    rw [hold] at hreads
    cases hreads
  | ok old =>
    rw [hold] at hreads
    cases hreads
    cases hall : LogEntry.decode (s ++ LogEntry.encode entries) with
    | ok all =>
      left
      unfold Reads
      rw [hread, hall, LogEntry.decode_append hold hall]
      exact congrArg Except.ok (LogEntry.live_append_stored old entries)
    | error k =>
      right
      constructor
      · intro t ht
        have hsame := hfound.symm.trans ht
        cases hsame
        refine LogEntry.endsLine_append_encode_of_ne_nil ?_ s
        rintro rfl
        rw [show LogEntry.encode [] = "" from rfl, String.append_empty, hold] at hall
        cases hall
      · intro other hother
        unfold Reads at hother
        rw [hread, hall] at hother
        cases hother

/-- Every change keeps a ledger faithful. -/
theorem invariant_faithful : Invariant Faithful where
  remember := by
    intro l live h hcurrent b hb
    cases hb
    unfold currentLive at hcurrent
    cases hcache : l.cache with
    | none =>
      rw [hcache] at hcurrent
      exact Or.inl hcurrent
    | some c =>
      rw [hcache] at hcurrent
      cases hcurrent
      exact h live hcache
  append := by
    intro l files entries h happend b hb
    obtain ⟨c, hc, rfl⟩ := Option.map_eq_some_iff.mp hb
    rcases h c hc with hreads | ⟨hends, hnone⟩
    · by_cases hends : l.EndsWhole
      · exact Or.inl (hreads.append hends happend)
      · exact reads_appended hends hreads happend
    · exact Or.inr ⟨hends.append happend _, fun other => not_reads_appended hends hnone happend⟩
  rewrite := by
    intro l files entries _ _ hwrite b hb
    cases hb
    rw [live_kept]
    exact Or.inl (coherent_rewritten hwrite).reads

/-! ## Live todos -/

/-- A faithful ledger has no other live todos than those of its log. -/
theorem Faithful.eq_of_reads (h : l.Faithful) (hcurrent : l.currentLive = .ok live)
    (hreads : l.Reads other) : other = live := by
  unfold currentLive at hcurrent
  cases hcache : l.cache with
  | none =>
    rw [hcache] at hcurrent
    exact hreads.unique hcurrent
  | some b =>
    rw [hcache] at hcurrent
    cases hcurrent
    rcases h live hcache with hlive | ⟨-, hnone⟩
    · exact hreads.unique hlive
    · exact absurd hreads (hnone other)

/-- Without a log, a faithful ledger has no live todos. -/
theorem Faithful.shows (h : l.Faithful) (hcurrent : l.currentLive = .ok live) : l.Shows live where
  current := hcurrent
  unlogged hfile := by
    rw [← h.eq_of_reads hcurrent (reads_of_readEntries (readEntries_of_isFile_eq_false hfile))]
    rfl

/-- The log is written anew only when the live todos can be read. -/
theorem exists_currentLive_of_compact {n : Nat} (hy : Yields compact l n l') :
    ∃ live, l.currentLive = .ok live := by
  obtain ⟨entries, hread, -⟩ := yields_compact.mp hy
  unfold currentLive
  rw [hread]
  cases l.cache with
  | none => exact ⟨_, rfl⟩
  | some b => exact ⟨b, rfl⟩

/-- Writing the log anew leaves the live todos as they are. -/
theorem Faithful.currentLive_compact (h : l.Faithful) (hcurrent : l.currentLive = .ok live) {n : Nat}
    (hy : Yields compact l n l') : l'.currentLive = .ok live := by
  obtain ⟨entries, hread, -, hleft⟩ := yields_compact.mp hy
  split at hleft
  · rw [hleft]
    exact hcurrent
  · obtain ⟨files, -, rfl⟩ := hleft
    rw [← h.eq_of_reads hcurrent (reads_of_readEntries hread), ← live_kept]
    rfl

/-! ## The same log -/

/-- Ledgers with the same log in the same directory that remember the same are both faithful. -/
theorem Faithful.congr (h : l.Faithful) (hdir : l'.baseDir = l.baseDir)
    (hlog : l'.files.contents? l.storagePath = l.files.contents? l.storagePath)
    (hcache : l'.cache = l.cache) : l'.Faithful := by
  unfold Faithful Reads EndsWhole at h ⊢
  rw [readEntries_congr hdir hlog, storagePath_congr hdir, hlog, hcache]
  exact h

end LintDebt.FileLedger
