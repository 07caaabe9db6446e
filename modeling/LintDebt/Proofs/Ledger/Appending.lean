import LintDebt.Proofs.FileTree.SameBut
import LintDebt.Proofs.Ledger.Operations
import LintDebt.Proofs.Log.Continued

/-!
# Appending to any log

Entries are appended to the text of a log as it stands.  What a ledger reads afterwards that is opened
anew depends on what stands behind the last line feed of the text.

* `LintDebt.FileLedger.Appends`: the log of a ledger is that of another with entries behind it.
* `LintDebt.FileLedger.Appends.readEntries_openIn`: what such a log holds.
* `LintDebt.FileLedger.exists_yields_append`: entries can be appended to any log that is there.
* `LintDebt.FileLedger.readEntries_append`: what the log holds afterwards.
* `LintDebt.FileLedger.exchange_spoils_open_line`: a log whose last line has no end is lost.
-/

namespace LintDebt.FileLedger

variable {l l' l'' : FileLedger} {live : Batch} {entries front back old : List LogEntry} {s : String}

/-! ## Logs with more entries -/

/-- Two ledgers lie in the same directory, and the log of the second is that of the first with entries
behind it. -/
structure Appends (l l' : FileLedger) (entries : List LogEntry) : Prop where
  baseDir : l'.baseDir = l.baseDir
  log : l'.files.contents? l.storagePath =
    if entries = [] then l.files.contents? l.storagePath
    else some (withEntries (l.files.contents? l.storagePath) entries)

namespace Appends

/-- A log is itself with no entries behind it. -/
theorem refl (l : FileLedger) : Appends l l [] :=
  ⟨rfl, rfl⟩

/-- Entries are appended one after the other. -/
theorem trans (h : Appends l l' front) (h' : Appends l' l'' back) : Appends l l'' (front ++ back) := by
  refine ⟨h'.baseDir.trans h.baseDir, ?_⟩
  have hlog := h.log
  have hlog' := h'.log
  rw [storagePath_congr h.baseDir] at hlog'
  rw [hlog', hlog]
  -- Nothing appended is not the same as an empty text appended, which would make a log where there is none.
  cases front with
  | nil => rw [if_pos rfl, List.nil_append]
  | cons e rest =>
    cases back with
    | nil => rw [if_pos rfl, List.append_nil]
    | cons e' rest' =>
      rw [if_neg (List.cons_ne_nil e' rest'), if_neg (List.cons_ne_nil e rest), if_neg nofun]
      unfold withEntries
      rw [Option.getD_some, Contents.append_append, LogEntry.encode_append]

/-- Behind whole lines, a log holds also what was appended, as far as it is stored. -/
theorem readEntries_eq (h : Appends l l' entries) (hends : l.EndsWhole) :
    l'.readEntries = l.readEntries.map (· ++ entries.map .stored) := by
  have hlog := h.log
  split at hlog
  · next hnil =>
    subst hnil
    rw [readEntries_congr h.baseDir hlog]
    cases l.readEntries with
    | error e => rfl
    | ok old => exact congrArg Except.ok (List.append_nil old).symm
  · exact readEntries_of_withEntries hends h.baseDir hlog

/-- A log still ends with a whole line when entries were appended. -/
theorem endsWhole (h : Appends l l' entries) (hends : l.EndsWhole) : l'.EndsWhole := by
  have hlog := h.log
  split at hlog
  · intro s hs
    rw [storagePath_congr h.baseDir, hlog] at hs
    exact hends s hs
  · exact hends.of_withEntries h.baseDir hlog

/-- Where there is no log, nothing was appended. -/
theorem eq_nil_of_unlogged (h : Appends l l' entries) (hunlogged : l'.files.isFile l'.storagePath = false) :
    entries = [] := by
  by_contra hsome
  have hlog := h.log
  rw [if_neg hsome, ← storagePath_congr h.baseDir] at hlog
  rw [FileTree.isFile, hlog] at hunlogged
  cases hunlogged

/-- A log that can be read and takes more holds the entries that were appended behind what it held; if it
takes no more, the line that they got on can no longer be read. -/
theorem readEntries_openIn (h : Appends l l' entries)
    (hlog : l.files.contents? l.storagePath = some (.text s)) (hold : LogEntry.decode s = .ok old)
    (day : Date) :
    (openIn l'.files l'.baseDir day).readEntries =
      if entries = [] ∨ LogEntry.takesMore s then .ok (old ++ entries.map .stored)
      else .error (.corrupt l.storagePath (LintDebt.Text.lines s).length) := by
  have hpath : (openIn l'.files l'.baseDir day).storagePath = l.storagePath :=
    storagePath_congr h.baseDir
  have hfound := h.log
  rw [hlog, ← hpath] at hfound
  cases entries with
  | nil =>
    have hread := readEntries_of_text (l := openIn l'.files l'.baseDir day) hfound
    rw [hread, hold, if_pos (Or.inl rfl), List.map_nil, List.append_nil]
    rfl
  | cons e rest =>
    have hread := readEntries_of_text (l := openIn l'.files l'.baseDir day) hfound
    rw [hread, LogEntry.decode_append_cons hold, hpath]
    cases LogEntry.takesMore s <;> rfl

end Appends

/-- The name of the log names an entry of its directory. -/
theorem isName_storageFile : FileTree.IsName storageFile :=
  ⟨by decide, by decide, by decide, by decide⟩

/-- Entries can be appended to a log that is there. -/
theorem exists_yields_append {held : Contents} (h : l.files.contents? l.storagePath = some held)
    (entries : List LogEntry) : ∃ l', Yields (append entries) l () l' := by
  by_cases hentries : entries = []
  · exact ⟨l, yields_append.mpr (by rw [if_pos hentries])⟩
  · obtain ⟨files, hfiles⟩ : ∃ files,
        l.files.append? l.storagePath (LogEntry.encode entries) = some files :=
      FileTree.exists_update?_of_contents? isName_storageFile h _
    exact ⟨_, yields_append.mpr (by rw [if_neg hentries]; exact ⟨files, hfiles, rfl⟩)⟩

/-- Appending entries leaves a log with these entries behind it. -/
theorem appends_append (hy : Yields (append entries) l () l') : Appends l l' entries := by
  rw [yields_append] at hy
  split at hy
  · next hnil =>
    subst hnil hy
    exact .refl _
  · next hentries =>
    obtain ⟨files, hfiles, rfl⟩ := hy
    refine ⟨rfl, ?_⟩
    rw [if_neg hentries]
    exact FileTree.contents?_append? hfiles

/-- A write leaves a log with more entries. -/
theorem appends_write {candidates : Batch} {scope : Scope} {summary : WriteSummary}
    (hy : Yields (write candidates scope) l summary l') :
    ∃ live, l.currentLive = .ok live ∧ Appends l l' (l.writeEntries candidates scope live) := by
  obtain ⟨live, hcurrent, happend, -⟩ := yields_write.mp hy
  have happends := appends_append happend
  exact ⟨live, hcurrent, happends.baseDir, happends.log⟩

/-! ## What is read -/

/-- Entries that are appended to a log that can be read are read behind what it held, if nothing but space
stands behind its last line feed; otherwise the line that they got on can no longer be read.  So it is with
the entries of any write and of any exchange. -/
theorem readEntries_append (hlog : l.files.contents? l.storagePath = some (.text s))
    (hold : LogEntry.decode s = .ok old) :
    (∃ l', Yields (append entries) l () l' ∧ ∀ day,
      (openIn l'.files l'.baseDir day).readEntries =
        if entries = [] ∨ LogEntry.takesMore s then .ok (old ++ entries.map .stored)
        else .error (.corrupt l.storagePath (LintDebt.Text.lines s).length)) ∧
      (LogEntry.takesMore s = true →
        (∀ candidates scope summary l', Yields (write candidates scope) l summary l' →
          ∃ live, l.currentLive = .ok live ∧ ∀ day, (openIn l'.files l'.baseDir day).readEntries =
            .ok (old ++ (l.writeEntries candidates scope live).map .stored)) ∧
        ∀ add remove l', Yields (exchange add remove) l () l' →
          ∀ day, (openIn l'.files l'.baseDir day).readEntries =
            .ok (old ++ (l.exchangeEntries add remove).map .stored)) := by
  refine ⟨?_, fun htakes => ⟨?_, ?_⟩⟩
  · obtain ⟨l', hy⟩ := exists_yields_append hlog entries
    exact ⟨l', hy, (appends_append hy).readEntries_openIn hlog hold⟩
  · intro candidates scope summary l' hy
    obtain ⟨live, hcurrent, happends⟩ := appends_write hy
    refine ⟨live, hcurrent, fun day => ?_⟩
    rw [happends.readEntries_openIn hlog hold day, if_pos (Or.inr htakes)]
  · intro add remove l' hy day
    have happends := appends_append (yields_exchange.mp hy)
    rw [happends.readEntries_openIn hlog hold day, if_pos (Or.inr htakes)]

/-- Files with a log of one todo, behind which stand a tabulator and a blank without a line feed. -/
def spacedFiles : FileTree where
  root := .directory
    [(".lint-todo", .file (.text (LogEntry.encode [⟨.add, exampleTodo⟩] ++ "\t ")))]

/-- A log that ends in space still holds its todo after its removal was appended. -/
theorem readEntries_append_of_space :
    ∃ l', Yields (append [⟨.remove, exampleTodo⟩]) (openIn spacedFiles "" exampleDay) () l' ∧ ∀ day,
      (openIn l'.files l'.baseDir day).readEntries =
        .ok [⟨.add, exampleTodo.stored⟩, ⟨.remove, exampleTodo.stored⟩] := by
  have hold : LogEntry.decode (LogEntry.encode [⟨.add, exampleTodo⟩] ++ "\t ") =
      .ok [⟨.add, exampleTodo.stored⟩] := by
    unfold LogEntry.decode
    rw [LintDebt.Text.lines_append (LogEntry.endsLine_encode _), LogEntry.lines_encode,
      LogEntry.decodeLines_append, LogEntry.decodeLines_map_compact]
    rfl
  -- the line of the todo has its end, and what follows it is space
  obtain ⟨⟨l', hy, hread⟩, -⟩ := @readEntries_append (openIn spacedFiles "" exampleDay)
    [⟨.remove, exampleTodo⟩] _ _ rfl hold
  refine ⟨l', hy, fun day => (hread day).trans ?_⟩
  have htakes : LogEntry.takesMore (LogEntry.encode [⟨.add, exampleTodo⟩] ++ "\t ") = true :=
    LogEntry.takesMore_append_of_space (LogEntry.endsLine_encode _)
      (by decide : '\n' ∉ ['\t', ' ']) rfl
  rw [if_pos (Or.inr htakes)]
  rfl

/-- Files with a log of one todo whose line has no end. -/
def openFiles : FileTree where
  root := .directory
    [(".lint-todo", .file (.text (LogEntry.toJson ⟨.add, exampleTodo⟩).compact))]

/-- When the last line of a log has no end, a change is written without an error, and then the log, which
could be read before, can no longer be read. -/
theorem exchange_spoils_open_line :
    (openIn openFiles "" exampleDay).readEntries = .ok [⟨.add, exampleTodo.stored⟩] ∧
      ∃ l', Yields (exchange (.ofList [exampleTodo]) .empty) (openIn openFiles "" exampleDay) () l' ∧
        ∀ day, (openIn l'.files l'.baseDir day).readEntries = .error (.corrupt ".lint-todo" 1) := by
  have hlog : (openIn openFiles "" exampleDay).files.contents?
      (openIn openFiles "" exampleDay).storagePath =
        some (.text (LogEntry.toJson ⟨.add, exampleTodo⟩).compact) := rfl
  obtain ⟨hlines, hclosed⟩ := LogEntry.takesMore_compact ⟨.add, exampleTodo⟩
  have hold : LogEntry.decode (LogEntry.toJson ⟨.add, exampleTodo⟩).compact =
      .ok [⟨.add, exampleTodo.stored⟩] := by
    unfold LogEntry.decode
    rw [hlines]
    exact LogEntry.decodeLines_map_compact 1 [⟨.add, exampleTodo⟩]
  constructor
  · rw [readEntries_of_text hlog, hold]
    rfl
  · have hlist : (Batch.ofList [exampleTodo]).toList = [exampleTodo] :=
      (Batch.toList_ofList _).trans (Todo.firsts_of_nodup (List.nodup_singleton _))
    obtain ⟨l', hy⟩ := exists_yields_append hlog
      ((openIn openFiles "" exampleDay).exchangeEntries (.ofList [exampleTodo]) .empty)
    refine ⟨l', yields_exchange.mpr hy, fun day => ?_⟩
    rw [(appends_append hy).readEntries_openIn hlog hold day, exchangeEntries, hlist, hlines, hclosed]
    rfl

end LintDebt.FileLedger
