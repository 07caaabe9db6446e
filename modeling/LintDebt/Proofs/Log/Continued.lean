import LintDebt.Proofs.Json.Extension
import LintDebt.Proofs.Log.Codec

/-!
# A log whose last line has no end

When the last line of a log has no line feed, the first entry that is appended gets on that line.  The
log holds the new entries behind the old ones when nothing but space stands on that line; otherwise the
line can no longer be read, whatever it held.

* `LintDebt.Text.openLine`: what stands behind the last line feed of a text.
* `LintDebt.LogEntry.takesMore`: entries can be appended to a text.
* `LintDebt.LogEntry.parse?_append_eq_none`: no entry is read behind another on one line.
* `LintDebt.LogEntry.decode_append_cons`: what a log holds to which entries were appended.
* `LintDebt.LogEntry.decode_append`: if it can be read, it holds them behind what it held.
-/

namespace LintDebt

namespace Text

/-- What stands behind the last line feed of a text. -/
def openLine (s : String) : List Char :=
  (s.toList.reverse.takeWhile (· != '\n')).reverse

/-- A text is whole lines and, behind them, a line that has no end. -/
theorem exists_eq_append_openLine (s : String) :
    ∃ front, EndsLine front ∧ s = front ++ String.ofList (openLine s) ∧ '\n' ∉ openLine s := by
  have hparts : s.toList =
      (s.toList.reverse.dropWhile (· != '\n')).reverse ++ openLine s := by
    unfold openLine
    rw [← List.reverse_append, List.takeWhile_append_dropWhile, List.reverse_reverse]
  refine ⟨String.ofList (s.toList.reverse.dropWhile (· != '\n')).reverse, ?_, ?_, fun hfeed => ?_⟩
  · cases hdrop : s.toList.reverse.dropWhile (· != '\n') with
    | nil => exact Or.inl rfl
    | cons c t =>
      have hne : s.toList.reverse.dropWhile (· != '\n') ≠ [] := hdrop ▸ List.cons_ne_nil c t
      have hc : c = '\n' := by
        have hhead := List.head_dropWhile_not (· != '\n') hne
        simpa [hdrop] using hhead
      refine Or.inr ⟨t.reverse, ?_⟩
      rw [String.toList_ofList, List.reverse_cons, hc]
  · rw [← String.ofList_append, ← hparts, String.ofList_toList]
  · unfold openLine at hfeed
    have hpass := List.mem_takeWhile_imp (List.mem_reverse.mp hfeed)
    exact absurd hpass (by decide)

/-- Behind whole lines, the line that has no end is what stands there. -/
theorem openLine_append {front : String} {last : List Char} (hends : EndsLine front)
    (hfeed : '\n' ∉ last) : openLine (front ++ String.ofList last) = last := by
  have hpass : ∀ c ∈ last.reverse, (c != '\n') = true := by
    rintro c hc
    rw [bne_iff_ne]
    rintro rfl
    exact hfeed (List.mem_reverse.mp hc)
  have hnone : front.toList.reverse.takeWhile (· != '\n') = [] := by
    rcases hends with rfl | ⟨chars, hchars⟩
    · rfl
    · rw [hchars, List.reverse_concat]
      rfl
  unfold openLine
  rw [String.toList_append, String.toList_ofList, List.reverse_append,
    List.takeWhile_append_of_pos hpass, hnone, List.append_nil, List.reverse_reverse]

/-- A line without an end is read as it stands. -/
theorem lines_last {last : List Char} (hne : last ≠ []) (hfeed : '\n' ∉ last) :
    lines (String.ofList last) = [String.ofList last] := by
  unfold lines
  rw [String.toList_ofList, split_of_not_mem hfeed, linesOfPieces, if_neg (by rwa [List.isEmpty_iff])]
  rfl

end Text

namespace LogEntry

open LintDebt.Text (EndsLine)

/-- Space is blank. -/
theorem isBlank_of_isSpace {c : Char} (h : Json.isSpace c = true) : Text.isBlank c = true := by
  simp only [Json.isSpace, Bool.or_eq_true, beq_iff_eq] at h
  rcases h with ((rfl | rfl) | rfl) | rfl <;> rfl

/-- No entry is read from its text with another entry in front. -/
theorem parse?_append_eq_none {line : String} {old : LogEntry} (h : parse? line = some old)
    (e : LogEntry) : parse? (line ++ e.toJson.compact) = none := by
  obtain ⟨j, hstrict, hentry⟩ := Option.bind_eq_some_iff.mp h
  have hparse : Json.parse? line = some j := (Option.filter_eq_some_iff.mp hstrict).1
  have hskip : Json.skipSpace e.toJson.compact.toList ≠ [] := by
    obtain ⟨c, cs, hcs, -⟩ := Json.exists_render_eq_cons e.toJson
    have hrender := Json.skipSpace_render e.toJson []
    rw [List.append_nil] at hrender
    rw [Json.compact, String.toList_ofList, hrender, hcs]
    exact List.cons_ne_nil c cs
  cases j with
  | obj members =>
    have hnone := Json.parse?_append_eq_none hparse hskip
    rw [parse?, Json.parseStrict?, hnone]
    rfl
  | _ => cases hentry

/-- Behind space an entry is read as it was written. -/
theorem parse?_append_of_space {space : List Char} (h : space.all Json.isSpace = true) (e : LogEntry) :
    parse? (String.ofList space ++ e.toJson.compact) = some e.stored := by
  rw [← e.parse?_compact]
  unfold parse? Json.parseStrict?
  rw [Json.parse?_of_space_append h]

/-- No entry is read behind blank characters that are not all space. -/
theorem parse?_append_of_blank {blank : List Char} (hblank : Text.allBlank (String.ofList blank) = true)
    (h : blank.all Json.isSpace = false) (e : LogEntry) :
    parse? (String.ofList blank ++ e.toJson.compact) = none := by
  rw [Text.allBlank, String.toList_ofList] at hblank
  unfold parse? Json.parseStrict?
  rw [Json.parse?_of_blank_append (List.all_eq_true.mp hblank) h]
  rfl

/-- A line that could be read by itself can be read with an entry behind it when it is space, and then
it holds nothing but this entry. -/
theorem parse?_append_of_decodeLines {last : List Char} {old : List LogEntry} {n : Nat}
    (h : decodeLines n [String.ofList last] = .ok old) (e : LogEntry) :
    parse? (String.ofList last ++ e.toJson.compact) =
        (if last.all Json.isSpace then some e.stored else none) ∧
      (last.all Json.isSpace = true → old = []) := by
  rw [decodeLines] at h
  cases hspace : last.all Json.isSpace with
  | true =>
    -- space is blank, so such a line holds no entry
    have hblank : Text.allBlank (String.ofList last) = true := by
      rw [Text.allBlank, String.toList_ofList, List.all_eq_true]
      exact fun c hc => isBlank_of_isSpace (List.all_eq_true.mp hspace c hc)
    rw [if_pos hblank] at h
    exact ⟨parse?_append_of_space hspace e, fun _ => (Except.ok.inj h).symm⟩
  | false =>
    refine ⟨?_, fun h => absurd h Bool.false_ne_true⟩
    split at h
    · next hblank => exact parse?_append_of_blank hblank hspace e
    · split at h
      · cases h
      · next hentry => exact parse?_append_eq_none hentry e

/-- Lines can be read when their two parts can. -/
theorem decodeLines_append_eq_ok {n : Nat} {front back : List String} {all : List LogEntry}
    (h : decodeLines n (front ++ back) = .ok all) :
    ∃ old new, decodeLines n front = .ok old ∧ decodeLines (n + front.length) back = .ok new ∧
      all = old ++ new := by
  rw [decodeLines_append] at h
  cases hfront : decodeLines n front with
  | error k =>
    rw [hfront] at h
    cases h
  | ok old =>
    rw [hfront] at h
    replace h : (decodeLines (n + front.length) back).map (old ++ ·) = .ok all := h
    cases hback : decodeLines (n + front.length) back with
    | error k =>
      rw [hback] at h
      cases h
    | ok new =>
      rw [hback] at h
      exact ⟨old, new, rfl, rfl, (Except.ok.inj h).symm⟩

/-- An entry gets on the last line of a text when this line has no end. -/
theorem lines_last_append {last : List Char} (hfeed : '\n' ∉ last) (e : LogEntry)
    (entries : List LogEntry) :
    Text.lines (String.ofList last ++ encode (e :: entries)) =
      (String.ofList last ++ e.toJson.compact) :: entries.map fun e => e.toJson.compact := by
  have hends : EndsLine (String.ofList last ++ e.toJson.compact ++ "\n") :=
    EndsLine.append_line _ _
  have hline : Text.lines (String.ofList last ++ e.toJson.compact ++ "\n") =
      [String.ofList last ++ e.toJson.compact] := by
    apply Text.lines_line
    · rw [String.toList_append, String.toList_ofList, List.mem_append, not_or]
      refine ⟨hfeed, fun hmem => ?_⟩
      exact absurd (e.showable_compact _ hmem) (by decide)
    · intro hreturn
      rw [String.toList_append, List.getLast?_append, Option.or_eq_some_iff] at hreturn
      rcases hreturn with hmem | ⟨hnone, -⟩
      · exact absurd (e.showable_compact _ (List.mem_of_getLast? hmem)) (by decide)
      · obtain ⟨c, cs, hcs, -⟩ := Json.exists_render_eq_cons e.toJson
        rw [Json.compact, String.toList_ofList, hcs, List.getLast?_eq_none_iff] at hnone
        cases hnone
  rw [encode_cons, ← String.append_assoc, ← String.append_assoc, Text.lines_append hends, hline,
    lines_encode]
  rfl

/-- Whether entries can be appended to a text as it is: nothing but space stands behind its last line
feed. -/
def takesMore (s : String) : Bool :=
  (Text.openLine s).all Json.isSpace

/-- Behind whole lines and space, entries can be appended. -/
theorem takesMore_append_of_space {front : String} {space : List Char} (hends : EndsLine front)
    (hfeed : '\n' ∉ space) (hspace : space.all Json.isSpace = true) :
    takesMore (front ++ String.ofList space) = true := by
  rw [takesMore, Text.openLine_append hends hfeed, hspace]

/-- A line of the log without an end is one line, and takes no more entries. -/
theorem takesMore_compact (e : LogEntry) :
    Text.lines e.toJson.compact = [e.toJson.compact] ∧ takesMore e.toJson.compact = false := by
  have hfeed : '\n' ∉ e.toJson.compact.toList := fun hmem =>
    absurd (e.showable_compact _ hmem) (by decide)
  have hshown := e.lines_compact.2
  constructor
  · have hne : e.toJson.compact.toList ≠ [] := fun hnil => by
      rw [Text.allBlank, hnil] at hshown
      cases hshown
    have hlast := Text.lines_last hne hfeed
    rwa [String.ofList_toList] at hlast
  · have hopen := Text.openLine_append (Or.inl rfl : EndsLine "") hfeed
    rw [String.ofList_toList, String.empty_append] at hopen
    rw [takesMore, hopen, ← Bool.not_eq_true, List.all_eq_true]
    intro hspace
    rw [Text.allBlank, ← Bool.not_eq_true, List.all_eq_true] at hshown
    exact hshown fun c hc => isBlank_of_isSpace (hspace c hc)

/-- When entries are appended to a log that can be read, the log holds them behind what it held, if it
takes more; otherwise its last line can no longer be read. -/
theorem decode_append_cons {s : String} {old : List LogEntry} (hold : decode s = .ok old) (e : LogEntry)
    (entries : List LogEntry) :
    decode (s ++ encode (e :: entries)) =
      if takesMore s then .ok (old ++ (e :: entries).map stored) else .error (Text.lines s).length := by
  obtain ⟨front, hends, hs, hfeed⟩ := Text.exists_eq_append_openLine s
  unfold takesMore
  generalize Text.openLine s = last at hs hfeed ⊢
  subst hs
  by_cases hlast : last = []
  · subst hlast
    rw [show String.ofList [] = "" from rfl, String.append_empty] at hold ⊢
    rw [decode_append_encode hends, hold, List.all_nil, if_pos rfl]
    rfl
  unfold decode at hold ⊢
  rw [Text.lines_append hends, Text.lines_last hlast hfeed] at hold ⊢
  rw [String.append_assoc, Text.lines_append hends, lines_last_append hfeed, decodeLines_append]
  obtain ⟨first, found, hfirst, hfound, rfl⟩ := decodeLines_append_eq_ok hold
  obtain ⟨hline, hnone⟩ := parse?_append_of_decodeLines hfound e
  have hshown : Text.allBlank (String.ofList last ++ e.toJson.compact) = false := by
    have hcompact := e.lines_compact.2
    unfold Text.allBlank at hcompact ⊢
    rw [String.toList_append, List.all_append, hcompact, Bool.and_false]
  rw [hfirst, decodeLines, hshown, if_neg Bool.false_ne_true, hline, decodeLines_map_compact]
  cases hspace : last.all Json.isSpace with
  | true =>
    rw [hnone hspace, List.append_nil]
    rfl
  | false =>
    rw [List.length_append, List.length_singleton, Nat.add_comm]
    rfl

/-- When entries are appended to a log that can be read, and the log can be read afterwards, then it holds
them behind what it held. -/
theorem decode_append {s : String} {entries old all : List LogEntry} (hold : decode s = .ok old)
    (hall : decode (s ++ encode entries) = .ok all) : all = old ++ entries.map stored := by
  cases entries with
  | nil =>
    rw [show encode [] = "" from rfl, String.append_empty, hold] at hall
    rw [List.map_nil, List.append_nil]
    exact (Except.ok.inj hall).symm
  | cons e entries =>
    rw [decode_append_cons hold] at hall
    split at hall
    · exact (Except.ok.inj hall).symm
    · cases hall

end LogEntry

end LintDebt
