import LintDebt.Proofs.Ledger.Appending

/-!
# Writing the log anew

A log that can be read can be written anew.  That drops entries; the live todos, and whether there is a log,
stay the same, and a second time nothing is dropped.

* `LintDebt.FileLedger.exists_yields_compact`: a log that can be read can be written anew.
* `LintDebt.FileLedger.logLength`: how many entries a log holds.
* `LintDebt.FileLedger.Aligned`: ledgers whose files differ in their logs alone.
* `LintDebt.FileLedger.Twins`: ledgers that differ in their logs, but not in their live todos.
* `LintDebt.FileLedger.Twins.append`: they stay so when the same entries are appended to both logs.
* `LintDebt.FileLedger.twins_compact`: a ledger whose log was written anew is one beside that before.
* `LintDebt.FileLedger.exists_yields_compact_again`: nothing is dropped a second time.
-/

namespace LintDebt.FileLedger

variable {l l' m m' : FileLedger} {live : Batch} {entries : List LogEntry} {files files' : FileTree}
  {n : Nat}

/-- A log with entries is there. -/
theorem exists_contents?_of_readEntries (hread : l.readEntries = .ok entries) (hne : entries ≠ []) :
    ∃ held, l.files.contents? l.storagePath = some held := by
  rw [← Option.ne_none_iff_exists']
  intro hnone
  rw [readEntries_of_none hnone] at hread
  exact hne (Except.ok.inj hread).symm

/-- A log that can be read can be written anew. -/
theorem exists_yields_compact (hread : l.readEntries = .ok entries) :
    ∃ l', Yields compact l (entries.length - (LogEntry.live entries).size) l' := by
  by_cases hentries : entries = []
  · exact ⟨l, yields_compact.mpr ⟨entries, hread, rfl, by rw [if_pos hentries]⟩⟩
  · obtain ⟨held, hheld⟩ := exists_contents?_of_readEntries hread hentries
    obtain ⟨files, hfiles⟩ : ∃ files,
        l.files.write? l.storagePath (LogEntry.encode (kept entries)) = some files :=
      FileTree.exists_update?_of_contents? isName_storageFile hheld _
    exact ⟨_, yields_compact.mpr ⟨entries, hread, rfl, by
      rw [if_neg hentries]
      exact ⟨files, hfiles, rfl⟩⟩⟩

/-! ## The number of entries -/

/-- How many entries a log holds, if it can be read. -/
def logLength (l : FileLedger) : Nat :=
  match l.readEntries with
  | .ok entries => entries.length
  | .error _ => 0

/-- A log that can be read holds as many entries as are read. -/
theorem logLength_of_readEntries (hread : l.readEntries = .ok entries) :
    l.logLength = entries.length := by
  rw [logLength, hread]

/-- A log that can be read holds its entries. -/
theorem Coherent.exists_readEntries (h : l.Coherent live) :
    ∃ entries, l.readEntries = .ok entries ∧ live = LogEntry.live entries := by
  have hreads := h.reads
  unfold Reads at hreads
  cases hread : l.readEntries with
  | error e =>
    rw [hread] at hreads
    cases hreads
  | ok entries =>
    rw [hread] at hreads
    exact ⟨entries, rfl, (Except.ok.inj hreads).symm⟩

/-- A log holds no fewer entries than live todos. -/
theorem Coherent.size_le_logLength (h : l.Coherent live) : live.size ≤ l.logLength := by
  obtain ⟨entries, hread, rfl⟩ := h.exists_readEntries
  rw [logLength_of_readEntries hread]
  exact LogEntry.size_live_le entries

/-- A log holds as many entries more as are appended. -/
theorem Coherent.logLength_appended (h : l.Coherent live)
    (happend : l.files.append? l.storagePath (LogEntry.encode entries) = some files) :
    (l.appended files entries).logLength = l.logLength + entries.length := by
  obtain ⟨old, hread, -⟩ := h.exists_readEntries
  have hread' : (l.appended files entries).readEntries = .ok (old ++ entries.map .stored) := by
    rw [appended, readEntries_of_append h.endsWhole happend, hread]
    rfl
  rw [logLength_of_readEntries hread, logLength_of_readEntries hread', List.length_append,
    List.length_map]

/-! ## Ledgers side by side -/

/-- Two ledgers in one directory, on one day; their files may differ in what the logs hold, though not in
whether there is a log. -/
structure Aligned (l m : FileLedger) : Prop where
  baseDir : m.baseDir = l.baseDir
  today : m.today = l.today
  files : FileTree.SameBut l.storagePath l.files m.files
  hasLog : m.files.isFile l.storagePath = l.files.isFile l.storagePath

namespace Aligned

/-- A ledger stands beside itself. -/
theorem refl (l : FileLedger) : Aligned l l :=
  ⟨rfl, rfl, .refl _ _, rfl⟩

/-- Ledgers side by side keep their logs at the same path. -/
theorem storagePath_eq (h : Aligned l m) : m.storagePath = l.storagePath :=
  storagePath_congr h.baseDir

/-- Ledgers side by side can change places. -/
theorem symm (h : Aligned l m) : Aligned m l where
  baseDir := h.baseDir.symm
  today := h.today.symm
  files := h.storagePath_eq ▸ h.files.symm
  hasLog := h.storagePath_eq ▸ h.hasLog.symm

/-- What is beside a ledger beside another is beside that. -/
theorem trans (h : Aligned l m) (h' : Aligned m m') : Aligned l m' where
  baseDir := h'.baseDir.trans h.baseDir
  today := h'.today.trans h.today
  files := h.files.trans (h.storagePath_eq ▸ h'.files)
  hasLog := (h.storagePath_eq ▸ h'.hasLog).trans h.hasLog

/-- Both ledgers have a log or neither has one. -/
theorem isFile_eq (h : Aligned l m) :
    m.files.isFile m.storagePath = l.files.isFile l.storagePath := by
  rw [h.storagePath_eq, h.hasLog]

/-- The logs of both can be changed, or neither can. -/
theorem isSome_update? (h : Aligned l m) (change change' : Option Contents → Contents) :
    (m.files.update? change' m.storagePath).isSome =
      (l.files.update? change l.storagePath).isSome := by
  rw [h.storagePath_eq]
  exact h.files.isSome_update? change change'

/-- Ledgers side by side stay so when the same entries are appended to their logs. -/
theorem append (h : Aligned l m)
    (hfiles : l.files.append? l.storagePath (LogEntry.encode entries) = some files)
    (hfiles' : m.files.append? m.storagePath (LogEntry.encode entries) = some files') :
    Aligned (l.appended files entries) (m.appended files' entries) := by
  rw [h.storagePath_eq] at hfiles'
  refine ⟨h.baseDir, h.today, ((FileTree.SameBut.of_update? hfiles).symm.trans h.files).trans
    (.of_update? hfiles'), ?_⟩
  show files'.isFile l.storagePath = files.isFile l.storagePath
  rw [FileTree.isFile, FileTree.isFile, FileTree.contents?_append? hfiles,
    FileTree.contents?_append? hfiles']
  rfl

end Aligned

/-- A ledger whose log is written anew stands beside what it was before. -/
theorem aligned_compact (hy : Yields compact l n l') : Aligned l l' := by
  obtain ⟨entries, hread, -, hleft⟩ := yields_compact.mp hy
  split at hleft
  · -- without entries nothing is written, so that no log is made where there is none
    rw [hleft]
    exact .refl l
  · next hne =>
    obtain ⟨files, hfiles, rfl⟩ := hleft
    obtain ⟨held, hheld⟩ := exists_contents?_of_readEntries hread hne
    refine ⟨rfl, rfl, .of_update? hfiles, ?_⟩
    show files.isFile l.storagePath = l.files.isFile l.storagePath
    rw [FileTree.isFile, FileTree.isFile, FileTree.contents?_write? hfiles, hheld]
    rfl

/-- Two ledgers in one directory, on one day, with the same live todos; their files may differ in what the
logs hold, though not in whether there is a log. -/
structure Twins (l m : FileLedger) (live : Batch) : Prop where
  baseDir : m.baseDir = l.baseDir
  today : m.today = l.today
  files : FileTree.SameBut l.storagePath l.files m.files
  hasLog : m.files.isFile l.storagePath = l.files.isFile l.storagePath
  left : l.Coherent live
  right : m.Coherent live

/-- Coherent ledgers side by side with the same live todos are twins. -/
theorem Aligned.twins (h : Aligned l m) (hl : l.Coherent live) (hm : m.Coherent live) :
    Twins l m live :=
  ⟨h.baseDir, h.today, h.files, h.hasLog, hl, hm⟩

namespace Twins

/-- Twins stand side by side. -/
theorem aligned (h : Twins l m live) : Aligned l m :=
  ⟨h.baseDir, h.today, h.files, h.hasLog⟩

/-- Twins can change places. -/
theorem symm (h : Twins l m live) : Twins m l live :=
  h.aligned.symm.twins h.right h.left

/-- The twin of a twin is a twin. -/
theorem trans (h : Twins l m live) (h' : Twins m m' live) : Twins l m' live :=
  (h.aligned.trans h'.aligned).twins h.left h'.right

/-- Twins stay so when they remember their live todos. -/
theorem remembering (h : Twins l m live) : Twins (l.remembering live) (m.remembering live) live where
  baseDir := h.baseDir
  today := h.today
  files := h.files
  hasLog := h.hasLog
  left := h.left.remembering
  right := h.right.remembering

/-- Twins stay so when they are opened anew. -/
theorem openIn (h : Twins l m live) (day : Date) :
    Twins (.openIn l.files l.baseDir day) (.openIn m.files m.baseDir day) live where
  baseDir := h.baseDir
  today := rfl
  files := h.files
  hasLog := h.hasLog
  left := h.left.openIn day
  right := h.right.openIn day

/-- Twins stay so when the same entries are appended to their logs. -/
theorem append (h : Twins l m live)
    (hfiles : l.files.append? l.storagePath (LogEntry.encode entries) = some files)
    (hfiles' : m.files.append? m.storagePath (LogEntry.encode entries) = some files') :
    Twins (l.appended files entries) (m.appended files' entries) (live.applyAll entries) :=
  (h.aligned.append hfiles hfiles').twins (h.left.append hfiles) (h.right.append hfiles')

end Twins

/-- A coherent ledger whose log is written anew is a twin of what it was before, and its log holds one entry
for each live todo. -/
theorem twins_compact (h : l.Coherent live) (hy : Yields compact l n l') :
    n = l.logLength - live.size ∧ l'.logLength = live.size ∧ Twins l l' live := by
  obtain ⟨entries, hread, rfl, hleft⟩ := yields_compact.mp hy
  obtain ⟨found, hread', rfl⟩ := h.exists_readEntries
  obtain rfl := Except.ok.inj (hread.symm.trans hread')
  have haligned := aligned_compact hy
  refine ⟨by rw [logLength_of_readEntries hread], ?_⟩
  split at hleft
  · next hnil =>
    subst hnil hleft
    exact ⟨logLength_of_readEntries hread, haligned.twins h h⟩
  · obtain ⟨files, hfiles, rfl⟩ := hleft
    have hread' : (l.rewritten files entries).readEntries = .ok ((kept entries).map .stored) :=
      readEntries_of_write hfiles _
    constructor
    · rw [logLength_of_readEntries hread', List.length_map, kept, List.length_map, Batch.size_eq]
    · exact haligned.twins h (coherent_rewritten hfiles)

/-- A log that was written anew is left as it is when this is done again. -/
theorem contents?_compact_compact {l'' : FileLedger} {n' : Nat} (hy : Yields compact l n l')
    (hy' : Yields compact l' n' l'') :
    l''.files.contents? l'.storagePath = l'.files.contents? l'.storagePath := by
  obtain ⟨entries, hread, -, hleft⟩ := yields_compact.mp hy
  obtain ⟨entries', hread', -, hleft'⟩ := yields_compact.mp hy'
  split at hleft'
  · rw [hleft']
  · next hne =>
    obtain ⟨files', hfiles', rfl⟩ := hleft'
    split at hleft
    · next hnil =>
      subst hnil hleft
      exact absurd (Except.ok.inj (hread'.symm.trans hread)) hne
    · obtain ⟨files, hfiles, rfl⟩ := hleft
      -- The second time the log is what was kept, of which all is live: the same text is written.
      have hagain : entries' = (kept entries).map .stored :=
        Except.ok.inj (hread'.symm.trans (readEntries_of_write hfiles _))
      have hlive : LogEntry.live entries' = LogEntry.live entries := by
        rw [hagain, ← live_kept entries]
        exact LogEntry.live_map_stored .empty (kept entries)
      have hkept : kept entries' = kept entries := by rw [kept, kept, hlive]
      rw [hkept] at hfiles'
      exact (FileTree.contents?_write? hfiles').trans (FileTree.contents?_write? hfiles).symm

/-- When the log of a coherent ledger is written anew twice, nothing is dropped the second time. -/
theorem exists_yields_compact_again (h : l.Coherent live) (hy : Yields compact l n l') :
    ∃ l'', Yields compact l' 0 l'' ∧
      l''.files.contents? l'.storagePath = l'.files.contents? l'.storagePath := by
  obtain ⟨-, hshort, htwins⟩ := twins_compact h hy
  obtain ⟨entries, hread, rfl⟩ := htwins.right.exists_readEntries
  obtain ⟨l'', hy'⟩ := exists_yields_compact hread
  have hsame := contents?_compact_compact hy hy'
  rw [logLength_of_readEntries hread] at hshort
  rw [hshort, Nat.sub_self] at hy'
  exact ⟨l'', hy', hsame⟩

end LintDebt.FileLedger
