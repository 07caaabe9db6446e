import LintDebt.Proofs.FileTree
import LintDebt.Proofs.Ledger.Invariant
import LintDebt.Proofs.Log.Codec
import LintDebt.Proofs.Todo.Batch

/-!
# The live todos of a ledger and its log

A ledger reads its log once and then only applies to the live todos what it appends.  As long as the
log ends with a whole line, the live todos are nevertheless those that the log holds.

* `LintDebt.FileLedger.Reads`: the live todos that the log holds.
* `LintDebt.FileLedger.EndsWhole`: entries can be appended to the log as they are.
* `LintDebt.FileLedger.Coherent`: the ledger and its log have the same live todos.
* `LintDebt.FileLedger.invariant_coherent`: every operation keeps a ledger coherent.
* `LintDebt.FileLedger.currentLive_performAll`: after any calls, a ledger that is opened anew has the
  same live todos.
-/

namespace LintDebt.FileLedger

open LintDebt.Text (EndsLine)

variable {l l' : FileLedger} {live : Batch} {files : FileTree} {entries : List LogEntry}

/-- The log can be read, and these are its live todos. -/
def Reads (l : FileLedger) (live : Batch) : Prop :=
  l.readEntries.map LogEntry.live = .ok live

/-- The log ends with a whole line, is empty or is missing. -/
def EndsWhole (l : FileLedger) : Prop :=
  ∀ s, l.files.contents? l.storagePath = some (.text s) → EndsLine s

/-- What the ledger remembers, if anything, is what its log holds, and the log ends with a whole
line. -/
structure Coherent (l : FileLedger) (live : Batch) : Prop where
  reads : l.Reads live
  remembers : ∀ b ∈ l.cache, b = live
  endsWhole : l.EndsWhole

/-! ## Reading the log -/

/-- Without a file for the log there are no entries. -/
theorem readEntries_of_isFile_eq_false (h : l.files.isFile l.storagePath = false) :
    l.readEntries = .ok [] := by
  unfold readEntries
  rw [h]
  rfl

/-- A log that is missing holds no entries. -/
theorem readEntries_of_none (h : l.files.contents? l.storagePath = none) :
    l.readEntries = .ok [] := by
  apply readEntries_of_isFile_eq_false
  rw [FileTree.isFile, h]
  rfl

/-- A log that is text holds the entries of its lines. -/
theorem readEntries_of_text {s : String}
    (h : l.files.contents? l.storagePath = some (.text s)) :
    l.readEntries = (LogEntry.decode s).mapError (.corrupt l.storagePath) := by
  have hfile : l.files.isFile l.storagePath = true := by
    rw [FileTree.isFile, h]
    rfl
  have htext : l.files.readText? l.storagePath = some s := by
    rw [FileTree.readText?, h]
    rfl
  unfold readEntries
  rw [hfile, htext]
  dsimp only
  cases LogEntry.decode s <;> rfl

/-- A log that is no text cannot be read. -/
theorem readEntries_of_binary {bytes : List UInt8}
    (h : l.files.contents? l.storagePath = some (.binary bytes)) :
    l.readEntries = .error (.file .readStorage l.storagePath) := by
  have hfile : l.files.isFile l.storagePath = true := by
    rw [FileTree.isFile, h]
    rfl
  have htext : l.files.readText? l.storagePath = none := by
    rw [FileTree.readText?, h]
    rfl
  unfold readEntries
  rw [hfile, htext]
  rfl

/-- A log has one list of live todos. -/
theorem Reads.unique {other : Batch} (h : l.Reads live) (h' : l.Reads other) : live = other := by
  unfold Reads at h h'
  rw [h] at h'
  exact Except.ok.inj h'

/-- A log whose text is that of entries holds them, as far as they are stored. -/
theorem readEntries_of_encode
    (h : l.files.contents? l.storagePath = some (.text (LogEntry.encode entries))) :
    l.readEntries = .ok (entries.map .stored) := by
  rw [readEntries_of_text h, LogEntry.decode_encode]
  rfl

/-- Its live todos are those of the entries. -/
theorem reads_of_encode
    (h : l.files.contents? l.storagePath = some (.text (LogEntry.encode entries))) :
    l.Reads (LogEntry.live entries) := by
  unfold Reads
  rw [readEntries_of_encode h]
  exact congrArg Except.ok (LogEntry.live_map_stored .empty entries)

/-- A log that was written anew holds what was written, as far as it is stored. -/
theorem readEntries_of_write
    (h : l.files.write? l.storagePath (LogEntry.encode entries) = some files)
    (cache : Option Batch) : readEntries { l with files, cache } = .ok (entries.map .stored) :=
  readEntries_of_encode (l := { l with files, cache }) (FileTree.contents?_write? h)

/-- Ledgers in the same directory keep their logs at the same path. -/
theorem storagePath_congr (hdir : l'.baseDir = l.baseDir) : l'.storagePath = l.storagePath := by
  rw [storagePath, storagePath, hdir]

/-- Ledgers with the same log in the same directory hold the same entries. -/
theorem readEntries_congr (hdir : l'.baseDir = l.baseDir)
    (hlog : l'.files.contents? l.storagePath = l.files.contents? l.storagePath) :
    l'.readEntries = l.readEntries := by
  unfold readEntries FileTree.isFile FileTree.readText?
  rw [storagePath_congr hdir, hlog]

/-- What a log holds to whose text entries were appended. -/
def withEntries (held : Option Contents) (entries : List LogEntry) : Contents :=
  (held.getD (.text "")).append (LogEntry.encode entries)

/-- Behind whole lines, a log holds also what was appended, as far as it is stored. -/
theorem readEntries_of_withEntries (hends : l.EndsWhole) (hdir : l'.baseDir = l.baseDir)
    (hlog : l'.files.contents? l.storagePath =
      some (withEntries (l.files.contents? l.storagePath) entries)) :
    l'.readEntries = l.readEntries.map (· ++ entries.map .stored) := by
  have hpath := storagePath_congr hdir
  rw [← hpath] at hlog
  cases hold : l.files.contents? l.storagePath with
  | none =>
    rw [hpath, hold, ← hpath] at hlog
    rw [readEntries_of_none hold, readEntries_of_text hlog, String.empty_append,
      LogEntry.decode_encode]
    rfl
  | some contents =>
    rw [hpath, hold, ← hpath] at hlog
    cases contents with
    | text s =>
      rw [readEntries_of_text hold, readEntries_of_text hlog, hpath,
        LogEntry.decode_append_encode (hends s hold)]
      cases LogEntry.decode s <;> rfl
    | binary bytes =>
      rw [readEntries_of_binary hold, readEntries_of_binary hlog, hpath]
      rfl

/-- Behind whole lines, a log holds also what was appended, as far as it is stored. -/
theorem readEntries_of_append (hends : l.EndsWhole)
    (h : l.files.append? l.storagePath (LogEntry.encode entries) = some files)
    (cache : Option Batch) :
    readEntries { l with files, cache } = l.readEntries.map (· ++ entries.map .stored) :=
  readEntries_of_withEntries hends rfl (FileTree.contents?_append? h)

/-- A log still ends with a whole line when entries were appended. -/
theorem EndsWhole.of_withEntries (hends : l.EndsWhole) (hdir : l'.baseDir = l.baseDir)
    (hlog : l'.files.contents? l.storagePath =
      some (withEntries (l.files.contents? l.storagePath) entries)) : l'.EndsWhole := by
  intro s hs
  rw [storagePath_congr hdir] at hs
  have hcontents := hlog.symm.trans hs
  cases hold : l.files.contents? l.storagePath with
  | none =>
    rw [hold] at hcontents
    cases hcontents
    exact LogEntry.endsLine_append_encode (Or.inl rfl) entries
  | some contents =>
    rw [hold] at hcontents
    cases contents with
    | text t =>
      cases hcontents
      exact LogEntry.endsLine_append_encode (hends t hold) entries
    | binary bytes => cases hcontents

/-- A log still ends with a whole line when entries were appended. -/
theorem EndsWhole.append (hends : l.EndsWhole)
    (h : l.files.append? l.storagePath (LogEntry.encode entries) = some files)
    (cache : Option Batch) : EndsWhole { l with files, cache } :=
  hends.of_withEntries rfl (FileTree.contents?_append? h)

/-- A log that was written anew ends with a whole line. -/
theorem endsWhole_of_write
    (h : l.files.write? l.storagePath (LogEntry.encode entries) = some files)
    (cache : Option Batch) : EndsWhole { l with files, cache } := by
  intro s hs
  have hcontents := (FileTree.contents?_write? h).symm.trans hs
  cases hcontents
  exact LogEntry.endsLine_encode entries

/-! ## Coherence -/

/-- A coherent ledger has the live todos of its log. -/
theorem Coherent.currentLive_eq (h : l.Coherent live) : l.currentLive = .ok live := by
  unfold currentLive
  cases hcache : l.cache with
  | none => exact h.reads
  | some b => rw [h.remembers b hcache]

/-- The live todos of a log that was written anew are what was live. -/
theorem live_kept (entries : List LogEntry) : LogEntry.live (kept entries) = LogEntry.live entries :=
  LogEntry.live_map_add LogEntry.stored_of_mem_live

/-- Behind whole lines, what is appended to a log is applied to its live todos. -/
theorem Reads.append (h : l.Reads live) (hends : l.EndsWhole)
    (happend : l.files.append? l.storagePath (LogEntry.encode entries) = some files) :
    (l.appended files entries).Reads (live.applyAll entries) := by
  unfold Reads at h ⊢
  rw [appended, readEntries_of_append hends happend]
  cases hread : l.readEntries with
  | error e =>
    rw [hread] at h
    cases h
  | ok old =>
    rw [hread] at h
    cases h
    exact congrArg Except.ok (LogEntry.live_append_stored old entries)

/-- A coherent ledger stays so when entries are appended. -/
theorem Coherent.append (h : l.Coherent live)
    (happend : l.files.append? l.storagePath (LogEntry.encode entries) = some files) :
    (l.appended files entries).Coherent (live.applyAll entries) := by
  refine ⟨h.reads.append h.endsWhole happend, ?_, h.endsWhole.append happend _⟩
  intro b hb
  obtain ⟨c, hc, rfl⟩ := Option.map_eq_some_iff.mp hb
  rw [h.remembers c hc]

/-- A coherent ledger stays so when it remembers its live todos. -/
theorem Coherent.remembering (h : l.Coherent live) : (l.remembering live).Coherent live :=
  ⟨h.reads, fun _ hb => (Option.some.inj hb).symm, h.endsWhole⟩

/-- A coherent ledger stays so when it is opened anew. -/
theorem Coherent.openIn (h : l.Coherent live) (day : Date) :
    (openIn l.files l.baseDir day).Coherent live :=
  ⟨h.reads, nofun, h.endsWhole⟩

/-- A ledger whose log was written so that it adds these todos and nothing else is coherent. -/
theorem coherent_of_write {cache : Option Batch} (hstored : ∀ t ∈ live.toList, t.stored = t)
    (hwrite : l.files.write? l.storagePath (LogEntry.encode (live.toList.map (⟨.add, ·⟩))) = some files)
    (hcache : ∀ b ∈ cache, b = live) : Coherent { l with files, cache } live := by
  have hreads : Reads { l with files, cache } (LogEntry.live (live.toList.map (⟨.add, ·⟩))) :=
    reads_of_encode (l := { l with files, cache }) (FileTree.contents?_write? hwrite)
  rw [LogEntry.live_map_add hstored] at hreads
  exact ⟨hreads, hcache, endsWhole_of_write hwrite _⟩

/-- A ledger whose log was written anew is coherent. -/
theorem coherent_rewritten
    (hwrite : l.files.write? l.storagePath (LogEntry.encode (kept entries)) = some files) :
    (l.rewritten files entries).Coherent (LogEntry.live entries) := by
  refine coherent_of_write LogEntry.stored_of_mem_live hwrite fun b hb => ?_
  cases hb
  exact live_kept entries

/-- Every change keeps a ledger coherent, with the live todos that it then has. -/
theorem invariant_coherent : Invariant fun l => ∃ live, l.Coherent live where
  remember := by
    rintro l live ⟨held, h⟩ hcurrent
    refine ⟨held, h.reads, ?_, h.endsWhole⟩
    intro b hb
    cases hb
    rw [h.currentLive_eq] at hcurrent
    exact (Except.ok.inj hcurrent).symm
  append := by
    rintro l files entries ⟨held, h⟩ happend
    exact ⟨held.applyAll entries, h.append happend⟩
  rewrite := by
    rintro l files entries - - hwrite
    exact ⟨LogEntry.live entries, coherent_rewritten hwrite⟩

/-! ## Any calls -/

/-- A call of an operation of a ledger. -/
inductive Call where
  | write (candidates : Batch) (scope : Scope)
  | sortOut (candidates : Batch) (scope : Scope)
  | exchange (add remove : Batch)
  | compact
  | liveTodos

/-- The ledger after a call, whether the call answers or fails. -/
def Call.after : Call → FileLedger → FileLedger
  | .write candidates scope, l => ((FileLedger.write candidates scope).run.run l).2
  | .sortOut candidates scope, l => ((FileLedger.sortOut candidates scope).run.run l).2
  | .exchange add remove, l => ((FileLedger.exchange add remove).run.run l).2
  | .compact, l => (FileLedger.compact.run.run l).2
  | .liveTodos, l => (FileLedger.liveTodos.run.run l).2

/-- The ledger after calls, each on a day of its own. -/
def performAll (l : FileLedger) (calls : List (Date × Call)) : FileLedger :=
  calls.foldl (fun l (today, call) => call.after { l with today }) l

/-- Every call keeps an invariant. -/
theorem Invariant.after {P : FileLedger → Prop} (hP : Invariant P) (h : P l) (call : Call) :
    P (call.after l) := by
  cases call with
  | write candidates scope => exact hP.ends_write h candidates scope
  | sortOut candidates scope => exact hP.ends_sortOut h candidates scope
  | exchange add remove => exact hP.ends_exchange h add remove
  | compact => exact hP.ends_compact h
  | liveTodos => exact hP.ends_liveTodos h

/-- Calls on any days keep an invariant that does not depend on the day. -/
theorem Invariant.performAll {P : FileLedger → Prop} (hP : Invariant P)
    (hday : ∀ l today, P l → P { l with today }) (h : P l) (calls : List (Date × Call)) :
    P (l.performAll calls) := by
  induction calls generalizing l with
  | nil => exact h
  | cons call calls ih =>
    obtain ⟨today, call⟩ := call
    exact ih (hP.after (hday l today h) call)

/-- Calls on any days keep a ledger coherent. -/
theorem coherent_performAll (h : ∃ live, l.Coherent live) (calls : List (Date × Call)) :
    ∃ live, (l.performAll calls).Coherent live := by
  refine invariant_coherent.performAll ?_ h calls
  rintro l today ⟨live, h⟩
  exact ⟨live, h.reads, h.remembers, h.endsWhole⟩

/-- The directory of a ledger never changes. -/
theorem invariant_baseDir (baseDir : String) : Invariant fun l => l.baseDir = baseDir where
  remember h _ := h
  append h _ := h
  rewrite h _ _ := h

/-- A ledger that is opened anew has the live todos of the log. -/
theorem currentLive_openIn (h : l.Reads live) (day : Date) :
    (openIn l.files l.baseDir day).currentLive = .ok live := h

/-- A ledger that was just opened on a log of whole lines that can be read, or on none, is coherent. -/
theorem exists_coherent_openIn {baseDir : String} {today : Date}
    (hstorage : files.contents? (openIn files baseDir today).storagePath = none ∨
      ∃ s entries, files.contents? (openIn files baseDir today).storagePath = some (.text s) ∧
        EndsLine s ∧ LogEntry.decode s = .ok entries) :
    ∃ live, (openIn files baseDir today).Coherent live := by
  rcases hstorage with hnone | ⟨s, entries, hs, hends, hdecode⟩
  · refine ⟨.empty, ?_, nofun, ?_⟩
    · unfold Reads
      rw [readEntries_of_none hnone]
      rfl
    · intro s hs
      have := hnone.symm.trans hs
      cases this
  · refine ⟨LogEntry.live entries, ?_, nofun, ?_⟩
    · unfold Reads
      rw [readEntries_of_text hs, hdecode]
      rfl
    · intro t ht
      have := hs.symm.trans ht
      cases this
      exact hends

/-- After any calls on any days, the ledger has live todos, and a ledger that is opened anew on the
same directory has the same. -/
theorem currentLive_performAll {baseDir : String} {first : Date}
    (hstorage : files.contents? (openIn files baseDir first).storagePath = none ∨
      ∃ s entries, files.contents? (openIn files baseDir first).storagePath = some (.text s) ∧
        EndsLine s ∧ LogEntry.decode s = .ok entries)
    (calls : List (Date × Call)) (day : Date) :
    ∃ live, ((openIn files baseDir first).performAll calls).currentLive = .ok live ∧
      (openIn ((openIn files baseDir first).performAll calls).files baseDir day).currentLive =
        .ok live := by
  obtain ⟨live, h⟩ := coherent_performAll (exists_coherent_openIn hstorage) calls
  refine ⟨live, h.currentLive_eq, ?_⟩
  have hdir := (invariant_baseDir baseDir).performAll (fun _ _ h => h)
    (l := openIn files baseDir first) rfl calls
  have hfresh := currentLive_openIn h.reads day
  rw [hdir] at hfresh
  exact hfresh

/-- A day for a small example. -/
def exampleDay : Date := ⟨738000, by decide⟩

/-- A todo for a small example. -/
def exampleTodo : Todo where
  engine := "stylelint"
  filePath := "a.css"
  ruleId := "color"
  span := ⟨⟨1, 1⟩, ⟨1, 4⟩⟩
  origin := some 0

/-- Files that hold the log of one todo and nothing else. -/
def exampleFiles : FileTree where
  root := .directory
    [(".lint-todo", .file (.text (LogEntry.encode [⟨.add, exampleTodo⟩])))]

/-- Calls that write the todo of the log again, take it out, put it back, and write the log anew. -/
def exampleCalls : List (Date × Call) :=
  [(exampleDay, .write (.ofList [exampleTodo]) ⟨"stylelint", "a.css", {}⟩),
    (exampleDay, .exchange .empty (.ofList [exampleTodo])),
    (exampleDay, .exchange (.ofList [exampleTodo]) .empty), (exampleDay, .compact)]

/-- The log of one todo is a log of whole lines, and stays the same as what is remembered of it. -/
theorem currentLive_performAll_of_one_todo :
    exampleFiles.contents? (openIn exampleFiles "" exampleDay).storagePath =
        some (.text (LogEntry.encode [⟨.add, exampleTodo⟩])) ∧
      ∃ live,
        ((openIn exampleFiles "" exampleDay).performAll exampleCalls).currentLive = .ok live ∧
          (openIn ((openIn exampleFiles "" exampleDay).performAll exampleCalls).files ""
            exampleDay).currentLive = .ok live := by
  have hstorage : exampleFiles.contents? (openIn exampleFiles "" exampleDay).storagePath =
      some (.text (LogEntry.encode [⟨.add, exampleTodo⟩])) := rfl
  have hends := LogEntry.endsLine_encode [⟨.add, exampleTodo⟩]
  have hdecode : LogEntry.decode (LogEntry.encode [⟨.add, exampleTodo⟩]) =
      .ok [⟨.add, exampleTodo.stored⟩] := LogEntry.decode_encode [⟨.add, exampleTodo⟩]
  exact ⟨hstorage, currentLive_performAll (Or.inr ⟨_, _, hstorage, hends, hdecode⟩) exampleCalls
    exampleDay⟩

end LintDebt.FileLedger
