import LintDebt.Proofs.Ledger.Coherence
import LintDebt.Proofs.Step

/-!
# What a log reads as

A log reads line by line: a line is blank, or of an entry, or the reading stops there.  The texts of
entries are lines of their own, so what was written reads back, with any blank lines between the
entries.

* `LintDebt.LogEntry.Readable`: a line that a log may hold.
* `LintDebt.LogEntry.decodeLines_eq_error_iff`: the reading stops at the first line that a log may not hold.
* `LintDebt.LogEntry.spaced`: a log with blank lines between its entries.
* `LintDebt.FileLedger.readEntries_of_log`: what the log of a ledger reads as.
-/

namespace LintDebt

open LintDebt.Text (EndsLine)

namespace LogEntry

variable {number : Nat} {line : String} {rest : List String} {entries : List LogEntry}

/-! ## Lines -/

/-- A line that a log may hold: a blank one, or one of an entry. -/
def Readable (line : String) : Prop :=
  Text.allBlank line = true ∨ (parse? line).isSome = true

instance (line : String) : Decidable (Readable line) :=
  inferInstanceAs (Decidable (_ ∨ _))

/-- At a line that a log may not hold the reading stops. -/
theorem decodeLines_of_not_readable (h : ¬ Readable line) :
    decodeLines number (line :: rest) = .error number := by
  obtain ⟨hblank, hparse⟩ := not_or.mp h
  rw [Option.not_isSome_iff_eq_none] at hparse
  rw [decodeLines, if_neg hblank, hparse]

/-- Behind a line that a log may hold the reading stops where that of the other lines does. -/
theorem decodeLines_eq_error_of_readable {k : Nat} (h : Readable line) :
    decodeLines number (line :: rest) = .error k ↔ decodeLines (number + 1) rest = .error k := by
  rw [decodeLines]
  split
  · rfl
  · next hblank =>
    obtain ⟨entry, hentry⟩ := Option.isSome_iff_exists.mp (h.resolve_left hblank)
    rw [hentry]
    cases decodeLines (number + 1) rest <;> simp [Except.map]

/-- The reading of numbered lines stops at the first that a log may not hold, and only there. -/
theorem decodeLines_eq_error_iff {k : Nat} {lines : List String} :
    decodeLines number lines = .error k ↔ ∃ front line back, lines = front ++ line :: back ∧
      (∀ other ∈ front, Readable other) ∧ ¬ Readable line ∧ k = number + front.length := by
  induction lines generalizing number with
  | nil => simp [decodeLines]
  | cons head rest ih =>
    by_cases hhead : Readable head
    -- The number has moved on by one, and what lies before the bad line is longer by one.
    · rw [decodeLines_eq_error_of_readable hhead, ih]
      constructor
      · rintro ⟨front, line, back, rfl, hfront, hline, rfl⟩
        refine ⟨head :: front, line, back, rfl, List.forall_mem_cons.mpr ⟨hhead, hfront⟩, hline, ?_⟩
        rw [List.length_cons]
        omega
      · rintro ⟨_ | ⟨first, front⟩, line, back, hlines, hfront, hline, rfl⟩
        · obtain ⟨rfl, -⟩ := List.cons.inj hlines
          exact absurd hhead hline
        · obtain ⟨rfl, rfl⟩ := List.cons.inj hlines
          refine ⟨front, line, back, rfl, (List.forall_mem_cons.mp hfront).2, hline, ?_⟩
          rw [List.length_cons]
          omega
    · rw [decodeLines_of_not_readable hhead]
      constructor
      · rintro ⟨⟩
        exact ⟨[], head, rest, rfl, List.forall_mem_nil _, hhead, rfl⟩
      · rintro ⟨_ | ⟨first, front⟩, line, back, hlines, hfront, -, rfl⟩
        · rfl
        · obtain ⟨rfl, -⟩ := List.cons.inj hlines
          exact absurd (hfront head List.mem_cons_self) hhead

/-- The reading stops somewhere when there is a line that a log may not hold. -/
theorem exists_decodeLines_eq_error_iff (number : Nat) {lines : List String} :
    (∃ k, decodeLines number lines = .error k) ↔ ∃ line ∈ lines, ¬ Readable line := by
  simp only [decodeLines_eq_error_iff]
  constructor
  · rintro ⟨k, front, line, back, rfl, -, hline, -⟩
    exact ⟨line, by simp, hline⟩
  · rintro ⟨line, hmem, hline⟩
    have hsome : (lines.find? fun line => decide (¬ Readable line)).isSome = true :=
      List.find?_isSome.mpr ⟨line, hmem, decide_eq_true hline⟩
    obtain ⟨first, hfirst⟩ := Option.isSome_iff_exists.mp hsome
    obtain ⟨hnot, front, back, rfl, hfront⟩ := List.find?_eq_some_iff_append.mp hfirst
    exact ⟨_, front, first, back, rfl, by simpa using hfront, of_decide_eq_true hnot, rfl⟩

/-! ## Blank lines -/

/-- What lines read as does not depend on their numbers, nor on the blank lines among them. -/
theorem decodeLines_eq_ok_iff_filter (other : Nat) {lines : List String} :
    decodeLines number lines = .ok entries ↔
      decodeLines other (lines.filter (!Text.allBlank ·)) = .ok entries := by
  induction lines generalizing number other entries with
  | nil => rfl
  | cons line rest ih =>
    by_cases hblank : Text.allBlank line = true
    · rw [List.filter_cons_of_neg (by simp [hblank]), decodeLines, if_pos hblank]
      exact ih other
    · rw [List.filter_cons_of_pos (by simp [hblank]), decodeLines, decodeLines, if_neg hblank,
        if_neg hblank]
      cases parse? line with
      | none => constructor <;> intro h <;> cases h
      | some entry =>
        simp only [map_eq_ok]
        exact exists_congr fun read => and_congr_left fun _ => ih (other + 1)

/-- The text of a log with blank lines before its entries, and further ones at its end. -/
def spaced (rows : List (String × LogEntry)) (rest : String) : String :=
  String.join (rows.map fun row => row.1 ++ encode [row.2]) ++ rest

/-- A blank text has only blank lines. -/
theorem filter_lines_of_allBlank {s : String} (h : Text.allBlank s = true) :
    (Text.lines s).filter (!Text.allBlank ·) = [] := by
  apply List.filter_eq_nil_iff.mpr
  intro line hline
  have hblank : Text.allBlank line = true := by
    rw [Text.allBlank, List.all_eq_true] at h ⊢
    exact fun c hc => h c (Text.subset_of_mem_lines hline hc)
  simp [hblank]

/-- The lines of a spaced log that are not blank are the texts of its entries. -/
theorem filter_lines_spaced {rows : List (String × LogEntry)} {rest : String}
    (hrows : ∀ row ∈ rows, Text.allBlank row.1 = true ∧ EndsLine row.1)
    (hrest : Text.allBlank rest = true) :
    (Text.lines (spaced rows rest)).filter (!Text.allBlank ·) =
      (rows.map Prod.snd).map fun e => e.toJson.compact := by
  induction rows with
  | nil =>
    have hform : spaced [] rest = rest := by simp [spaced]
    rw [hform]
    exact filter_lines_of_allBlank hrest
  | cons row rows ih =>
    obtain ⟨⟨hblank, hends⟩, hrows⟩ := List.forall_mem_cons.mp hrows
    have hform : spaced (row :: rows) rest = row.1 ++ (encode [row.2] ++ spaced rows rest) := by
      simp only [spaced, List.map_cons, String.join_cons, String.append_assoc]
    have hentry : (Text.lines (encode [row.2])).filter (!Text.allBlank ·) = [row.2.toJson.compact] := by
      rw [lines_encode]
      exact List.filter_cons_of_pos (by rw [row.2.lines_compact.2, Bool.not_false])
    rw [hform, Text.lines_append hends, Text.lines_append (endsLine_encode _), List.filter_append,
      List.filter_append, filter_lines_of_allBlank hblank, hentry, ih hrows]
    rfl

/-- A log reads back from its text, with blank lines between its entries. -/
theorem decode_spaced {rows : List (String × LogEntry)} {rest : String}
    (hrows : ∀ row ∈ rows, Text.allBlank row.1 = true ∧ EndsLine row.1)
    (hrest : Text.allBlank rest = true) :
    decode (spaced rows rest) = .ok ((rows.map Prod.snd).map stored) := by
  unfold decode
  rw [decodeLines_eq_ok_iff_filter 1, filter_lines_spaced hrows hrest]
  exact decodeLines_map_compact 1 _

end LogEntry

namespace FileLedger

open LogEntry (Readable encode spaced)

variable {l : FileLedger} {text : String}

/-! ## The log of a ledger -/

/-- The log of a ledger fails to be read at the first line that it may not hold, and only there. -/
theorem readEntries_eq_error_iff (h : l.files.contents? l.storagePath = some (.text text))
    {error : LedgerError} :
    l.readEntries = .error error ↔ ∃ front line back, Text.lines text = front ++ line :: back ∧
      (∀ other ∈ front, Readable other) ∧ ¬ Readable line ∧
      error = .corrupt l.storagePath (front.length + 1) := by
  rw [readEntries_of_text h, mapError_eq_error, LogEntry.decode]
  simp only [LogEntry.decodeLines_eq_error_iff]
  constructor
  · rintro ⟨k, ⟨front, line, back, hlines, hfront, hline, rfl⟩, rfl⟩
    exact ⟨front, line, back, hlines, hfront, hline, by rw [Nat.add_comm]⟩
  · rintro ⟨front, line, back, hlines, hfront, hline, rfl⟩
    exact ⟨_, ⟨front, line, back, hlines, hfront, hline, rfl⟩, by rw [Nat.add_comm]⟩

/-- The log of a ledger reads back from what was written, but for the fields that are never stored, also
with blank lines between the entries.  Whatever the log is, it fails to be read when one of its lines is
neither blank nor of an entry, and the cause names the first such line by its number. -/
theorem readEntries_of_log (h : l.files.contents? l.storagePath = some (.text text)) :
    (∀ entries : List LogEntry, text = encode entries → l.readEntries =
      .ok (entries.map fun e => { e with todo := { e.todo with origin := none, decay := none } })) ∧
    (∀ (rows : List (String × LogEntry)) (rest : String),
      (∀ row ∈ rows, Text.allBlank row.1 = true ∧ EndsLine row.1) → Text.allBlank rest = true →
      text = spaced rows rest → l.readEntries = .ok ((rows.map Prod.snd).map fun e =>
        { e with todo := { e.todo with origin := none, decay := none } })) ∧
    ((∃ error, l.readEntries = .error error) ↔
      ∃ line ∈ Text.lines text, Text.allBlank line = false ∧ LogEntry.parse? line = none) ∧
    ∀ error, l.readEntries = .error error ↔ ∃ front line back, Text.lines text = front ++ line :: back ∧
      (∀ other ∈ front, Text.allBlank other = true ∨ (LogEntry.parse? other).isSome = true) ∧
      (Text.allBlank line = false ∧ LogEntry.parse? line = none) ∧
      error = .corrupt l.storagePath (front.length + 1) := by
  have hnot : ∀ line, ¬ Readable line ↔ Text.allBlank line = false ∧ LogEntry.parse? line = none := by
    intro line
    rw [Readable, not_or, Bool.not_eq_true, Option.not_isSome_iff_eq_none]
  refine ⟨?_, ?_, ?_, ?_⟩
  · rintro entries rfl
    exact readEntries_of_encode h
  · rintro rows rest hrows hrest rfl
    rw [readEntries_of_text h, LogEntry.decode_spaced hrows hrest]
    rfl
  · simp only [← hnot]
    rw [← LogEntry.exists_decodeLines_eq_error_iff 1, readEntries_of_text h]
    simp only [mapError_eq_error]
    constructor
    · rintro ⟨error, k, hk, -⟩
      exact ⟨k, hk⟩
    · rintro ⟨k, hk⟩
      exact ⟨_, k, hk, rfl⟩
  · intro error
    rw [readEntries_eq_error_iff h]
    simp only [hnot]
    rfl

/-- Files that hold a log with two blank lines and one that is of no entry. -/
def corruptFiles : FileTree where
  root := .directory [(".lint-todo", .file (.text "\n \nnot json\n"))]

/-- The log with two blank lines in front fails to be read at its third line. -/
theorem readEntries_of_log_of_corrupt :
    corruptFiles.contents? (openIn corruptFiles "" exampleDay).storagePath =
        some (.text "\n \nnot json\n") ∧
      (openIn corruptFiles "" exampleDay).readEntries = .error (.corrupt ".lint-todo" 3) := by
  have htext : corruptFiles.contents? (openIn corruptFiles "" exampleDay).storagePath =
      some (.text "\n \nnot json\n") := rfl
  have hlines : Text.lines "\n \nnot json\n" = ["", " "] ++ "not json" :: [] := by decide +kernel
  obtain ⟨-, -, -, hfails⟩ :=
    readEntries_of_log (l := openIn corruptFiles "" exampleDay) htext
  exact ⟨htext, (hfails _).mpr ⟨["", " "], "not json", [], hlines, by decide +kernel, by decide +kernel,
    rfl⟩⟩

end FileLedger

end LintDebt
