import LintDebt.Proofs.Path
import LintDebt.Proofs.Report.Rows
import LintDebt.Proofs.Report.Style
import LintDebt.Proofs.Text.Wrap

/-!
# Reports in colour

A report in colour is the plain report with style sequences in between.  Its columns are as wide, its messages
are wrapped at the same places, and as much is trimmed from its lines and from the whole, as long as no text
has an escape character of its own, and a text in a style at the end of a line does not end in blanks.

* `LintDebt.LintResult.Colorable`: results of which this can be said.
* `LintDebt.Path.inert_relativeTo`, `LintDebt.Table.mem_cleanMessage`: what is shown has no escape characters of
  its own.
* `LintDebt.Table.paintedAtEnds_rowText`, `LintDebt.Table.paintedAtEnds_layOut`: rows and tables.
* `LintDebt.Console.paintedAtEnds_invalidOptions`, `LintDebt.Console.paintedAtEnds_deprecations`: notices.
* `LintDebt.Console.strip_render`: a coloured report without its style sequences.
-/

namespace LintDebt

open LintDebt.Style (escape Inert Painted PaintedAtStart PaintedAtEnd PaintedAtEnds Paintable strip)
open LintDebt.Text (EndsVisibly StartsVisibly isBlank allBlank)

/-! ## Results -/

/-- A diagnostic whose texts have no escape characters and whose rule may stand at the end of a line. -/
structure Diagnostic.Colorable (d : Diagnostic) : Prop where
  text : Inert d.text
  rule : ∀ rule ∈ d.rule, Paintable rule

/-- A result whose texts have no escape characters; those that stand at the end of a line do not end in
blanks. -/
structure LintResult.Colorable (r : LintResult) : Prop where
  source : ∀ source ∈ r.source, Inert source
  warnings : ∀ d ∈ r.warnings, d.Colorable
  parseErrors : ∀ e ∈ r.parseErrors, Inert e.text ∧ Paintable e.kind
  invalidOptions : ∀ i ∈ r.invalidOptions, Paintable i.text
  deprecations : ∀ d ∈ r.deprecations, Paintable d.text ∧ ∀ target ∈ d.reference, Paintable target

/-! ## Texts without escape characters -/

namespace Style

/-- No sequence starts in a number. -/
theorem inert_toString (n : Nat) : Inert (toString n) := by
  have hdigits : (toString n).toList = Text.decimalDigits n := Nat.toList_repr
  intro hmem
  rw [hdigits] at hmem
  exact Text.ne_of_isDigit (Text.isDigit_of_mem_decimalDigits hmem) (by decide) rfl

/-- No sequence starts in the count of some things. -/
theorem inert_counted (n : Nat) {noun : String} (h : Inert noun) : Inert (counted n noun) := by
  have hnoun : Inert (pluralize noun n) := by
    unfold pluralize
    split
    · exact h
    · exact h.append (by decide)
  exact ((inert_toString n).append (by decide)).append hnoun

/-- No sequence starts in texts with a separator in between when none starts in any of them. -/
theorem inert_intercalate {separator : String} {pieces : List String} (hseparator : Inert separator)
    (h : ∀ piece ∈ pieces, Inert piece) : Inert (separator.intercalate pieces) := by
  induction pieces with
  | nil =>
    rw [String.intercalate_nil]
    decide
  | cons piece pieces ih =>
    have hpiece := h piece List.mem_cons_self
    have hpieces := ih fun p hp => h p (List.mem_cons_of_mem piece hp)
    by_cases hnil : pieces = []
    · rw [hnil, String.intercalate_singleton]
      exact hpiece
    · rw [String.intercalate_cons_of_ne_nil hnil]
      exact (hpiece.append hseparator).append hpieces

end Style

/-- No sequence starts in a side of the window. -/
theorem Summary.inert_of_mem_side {name : String} (hname : Inert name) {days : Option UInt32} {text : String}
    (h : text ∈ side name days) : Inert text := by
  unfold side at h
  split at h
  · split at h
    · cases h
    · rw [List.mem_singleton.mp h]
      exact (hname.append (by decide)).append (Style.inert_toString _)
  · cases h

/-- No sequence starts in a summary. -/
theorem Summary.inert_text (s : Summary) : Inert s.text := by
  have hadded : Inert ("✔ " ++ toString s.added ++ " todos created, ") :=
    (Inert.append (by decide) (Style.inert_toString _)).append (by decide)
  refine ((hadded.append (Style.inert_toString s.removed)).append (by decide)).append ?_
  split
  · decide
  · refine (Inert.append (by decide) (Style.inert_intercalate (by decide) fun side hside => ?_)).append (by decide)
    rcases List.mem_append.mp hside with hwarn | herror
    · exact inert_of_mem_side (by decide) hwarn
    · exact inert_of_mem_side (by decide) herror

/-- A path as seen from a base directory has no escape characters of its own. -/
theorem Path.inert_relativeTo (base : String) {source : String} (h : Inert source) :
    Inert (relativeTo base source) := by
  obtain ⟨names, hnames, hrelative⟩ := exists_names_relativeTo base source
  rw [hrelative]
  refine Style.inert_intercalate (by decide) fun name hname => ?_
  rcases hnames name hname with rfl | ⟨c, hc, hfound⟩
  · decide
  · exact fun hmem => h (subset_of_mem_components hc hfound hmem)

namespace Table

/-- No sequence starts in spaces. -/
theorem inert_blanks (n : Nat) : Inert (blanks n) := by
  intro hmem
  rw [blanks, String.toList_ofList] at hmem
  exact absurd (List.eq_of_mem_replicate hmem) (by decide)

/-- On one line a message has no other characters, except for spaces. -/
theorem mem_flatten {inRun : Bool} {s : List Char} {c : Char} (h : c ∈ flatten inRun s) : c = ' ' ∨ c ∈ s := by
  fun_induction flatten inRun s with
  | case1 => exact Or.inr h
  | case2 c' rest _ ih => exact (ih h).imp_right (List.mem_cons_of_mem c')
  | case3 inRun c' rest _ hfirst ih =>
    rcases List.mem_cons.mp h with hspace | h
    · exact Or.inl hspace
    · exact (ih h).imp_right (List.mem_cons_of_mem c')
  | case4 inRun c' rest _ ih =>
    rcases List.mem_cons.mp h with rfl | h
    · exact Or.inr List.mem_cons_self
    · exact (ih h).imp_right (List.mem_cons_of_mem c')

/-- Without a full stop at its end a message has no other characters. -/
theorem dropFullStop_subset (s : List Char) : dropFullStop s ⊆ s := by
  unfold dropFullStop
  split
  · exact List.dropLast_subset s
  · exact List.Subset.refl s

/-- Without an ending a message has no other characters. -/
theorem dropEnding_subset (ending s : List Char) : dropEnding ending s ⊆ s := by
  unfold dropEnding
  split
  · exact List.take_subset _ s
  · exact List.Subset.refl s

/-- In its row a message has no other characters, except for spaces. -/
theorem mem_cleanMessage {d : Diagnostic} {c : Char} (h : c ∈ cleanMessage d) : c = ' ' ∨ c ∈ d.text.toList :=
  mem_flatten (dropFullStop_subset _ (dropEnding_subset _ _ h))

/-- No sequence starts in a part of a message. -/
theorem inert_chunk {room : Nat} {message chunk : List Char} (hmessage : escape ∉ message)
    (h : chunk ∈ ruler.wrap room message) : Inert (String.ofList chunk) := by
  intro hmem
  rw [String.toList_ofList] at hmem
  rcases ruler.mem_of_mem_wrap room h hmem with hspace | hmem
  · exact absurd hspace (by decide)
  · exact hmessage hmem

/-! ## Rows -/

/-- A row without escape characters, whose position starts with what shows and whose rule may stand at the end
of a line, if they are there. -/
structure Row.Colorable (row : Row) : Prop where
  line : Inert row.line
  line_starts : row.line ≠ "" → StartsVisibly row.line
  column : Inert row.column
  message : escape ∉ row.message
  rule : row.rule = "" ∨ Paintable row.rule

/-- No sequence starts in a number of a position. -/
theorem inert_numberCell (n : UInt32) : Inert (numberCell n) := by
  unfold numberCell
  split
  · decide
  · exact Style.inert_toString _

/-- A number of a position starts with a digit, if it is there. -/
theorem startsVisibly_numberCell {n : UInt32} (hne : numberCell n ≠ "") : StartsVisibly (numberCell n) := by
  obtain ⟨c, digits, hdigits, hc⟩ := Text.exists_digit_eq_decimalDigits n.toNat
  unfold numberCell at hne ⊢
  split
  · next hzero =>
    rw [if_pos hzero] at hne
    exact absurd rfl hne
  · have hblank : isBlank c = false := by
      have hbounds := Char.isDigit_iff_toNat.mp hc
      have hzero : '0'.toNat = 48 := rfl
      have hnine : '9'.toNat = 57 := rfl
      simp only [isBlank, Bool.or_eq_false_iff, Bool.and_eq_false_iff, decide_eq_false_iff_not, beq_eq_false_iff_ne]
      omega
    exact ⟨c, digits, Nat.toList_repr.trans hdigits, hblank⟩

/-- The row of a diagnostic may be coloured when its texts may. -/
theorem Row.Colorable.of {d : Diagnostic} (h : d.Colorable) : (Row.of d).Colorable where
  line := inert_numberCell d.line
  line_starts := startsVisibly_numberCell
  column := inert_numberCell d.column
  message := by
    intro hmem
    rcases mem_cleanMessage hmem with hspace | hmem
    · exact absurd hspace (by decide)
    · exact h.text hmem
  rule := by
    show d.rule.getD "" = "" ∨ Paintable (d.rule.getD "")
    cases hrule : d.rule with
    | none => exact Or.inl rfl
    | some rule => exact Or.inr (h.rule rule hrule)

variable {row : Row}

/-- The position of a row is painted as a whole, with the spaces outside. -/
theorem paintedAtStart_positionCell (h : row.Colorable) (w : Widths) :
    PaintedAtStart (positionCell true w row) (positionCell false w row) := by
  unfold positionCell
  dsimp only
  split
  · have hline : Inert (padStart w.line row.line) := (inert_blanks _).append h.line
    have hcolumn : Inert (padEnd w.column row.column) := h.column.append (inert_blanks _)
    exact ((hline.append (by decide)).append hcolumn).atEnds.atStart
  · next hboth =>
    have hline : row.line ≠ "" := by
      intro hline
      rw [hline] at hboth
      exact hboth rfl
    have hjoined : Inert (row.line ++ ":" ++ row.column) := (h.line.append (by decide)).append h.column
    have hstarts : StartsVisibly (row.line ++ ":" ++ row.column) :=
      ((h.line_starts hline).append ":").append row.column
    rw [Style.paint_plain]
    exact ((inert_blanks _).atEnds.atStart.append (Style.paintedAtStart_paint .dim hjoined hstarts)).append
      (inert_blanks _).atEnds.atStart

/-- The sign of a row is painted, with the spaces outside. -/
theorem paintedAtEnds_symbolCell (w : Widths) (row : Row) :
    PaintedAtEnds (symbolCell true w row) (symbolCell false w row) := by
  obtain ⟨hinert, hstarts, hends⟩ : Inert row.severity.symbol ∧ StartsVisibly row.severity.symbol ∧
      EndsVisibly row.severity.symbol := by
    cases row.severity <;> decide +kernel
  have hsign : PaintedAtEnds (row.severity.paintedSymbol true) (row.severity.paintedSymbol false) := by
    unfold Severity.paintedSymbol
    rw [Style.paint_plain]
    exact ⟨Style.paintedAtStart_paint _ hinert hstarts, Painted.atEnd_paint _ (.refl hinert) hends⟩
  exact ((inert_blanks _).atEnds.append hsign).append (inert_blanks _).atEnds

/-- The sign of a row shows. -/
theorem allBlank_symbolCell (w : Widths) (row : Row) : allBlank (symbolCell false w row) = false := by
  unfold symbolCell Severity.paintedSymbol
  rw [Text.allBlank_append, Text.allBlank_append, Style.paint_plain, row.severity.allBlank_symbol,
    Bool.and_false, Bool.false_and]

/-- What stands in front of a message is painted, and the sign ends what is painted. -/
theorem paintedAtEnds_lead (h : row.Colorable) (w : Widths) :
    PaintedAtEnds (lead true w row) (lead false w row) := by
  have hmargin : Inert " " := by decide
  have hgap : Inert "  " := by decide
  have hposition := (hmargin.atEnds.atStart.append (paintedAtStart_positionCell h w)).append hgap.atEnds.atStart
  have hsign := (paintedAtEnds_symbolCell w row).append hgap.atEnds
  have hshows : allBlank (symbolCell false w row ++ "  ") = false := by
    rw [Text.allBlank_append, allBlank_symbolCell, Bool.false_and]
  have hlead : ∀ color, lead color w row =
      " " ++ positionCell color w row ++ "  " ++ (symbolCell color w row ++ "  ") :=
    fun color => String.append_assoc
  rw [hlead, hlead]
  exact ⟨hposition.append hsign.atStart, hsign.atEnd.painted_append hshows hposition.painted⟩

/-- The first line of a row is painted up to its end, where the rule is. -/
theorem paintedAtEnds_firstLine (h : row.Colorable) (w : Widths) (room : Nat) {chunk : List Char}
    (hchunk : Inert (String.ofList chunk)) :
    PaintedAtEnds (firstLine true w room row chunk) (firstLine false w room row chunk) := by
  have hmessage : Inert (padEnd room (String.ofList chunk)) := hchunk.append (inert_blanks _)
  have hgap : Inert "  " := by decide
  have hfront := ((paintedAtEnds_lead h w).append hmessage.atEnds).append hgap.atEnds
  have hshows : allBlank (lead false w row ++ padEnd room (String.ofList chunk) ++ "  ") = false := by
    simp only [lead, Text.allBlank_append, allBlank_symbolCell, Bool.and_false, Bool.false_and]
  unfold firstLine
  rw [Style.paint_plain]
  exact hfront.append_paint hshows .dim h.rule

/-- The lines of a row are painted. -/
theorem paintedAtEnds_rowText (h : row.Colorable) (w : Widths) (room : Nat) :
    PaintedAtEnds (rowText true w room row) (rowText false w room row) := by
  have hchunk : Inert (String.ofList ((ruler.wrap room row.message).headD [])) := by
    cases hwrap : ruler.wrap room row.message with
    | nil => decide
    | cons chunk chunks =>
      have hmem : chunk ∈ ruler.wrap room row.message := hwrap ▸ List.mem_cons_self
      exact inert_chunk h.message hmem
  have hfurther : Inert (String.join (((ruler.wrap room row.message).tail.map (furtherLine w)).map (· ++ "\n"))) := by
    refine Style.inert_join fun line hline => ?_
    obtain ⟨_, hmem, rfl⟩ := List.mem_map.mp hline
    obtain ⟨chunk, hchunk, rfl⟩ := List.mem_map.mp hmem
    have hinert := (inert_chunk h.message (List.mem_of_mem_tail hchunk)).trimEnd
    exact ((inert_blanks _).append hinert).append (by decide)
  have hfeed : Inert "\n" := by decide
  have hfirst := (paintedAtEnds_firstLine h w room hchunk).trimEnd
  unfold rowText rowLines
  rw [List.map_cons, List.map_cons, String.join_cons, String.join_cons]
  exact (hfirst.append hfeed.atEnds).append hfurther.atEnds

/-- A row shows something. -/
theorem allBlank_rowText (color : Bool) (w : Widths) (room : Nat) (row : Row) :
    allBlank (rowText color w room row) = false := by
  unfold rowText rowLines
  rw [List.map_cons, String.join_cons, Text.allBlank_append, Text.allBlank_append, Text.allBlank_trimEnd,
    allBlank_firstLine, Bool.false_and, Bool.false_and]

/-! ## Tables -/

/-- The head of a table is painted. -/
theorem paintedAtStart_heading (p : Presentation) {source : String} (h : Inert source) :
    PaintedAtStart (heading { p with color := true } source) (heading { p with color := false } source) := by
  have hfeed : Inert "\n" := by decide
  have hline : PaintedAtStart (sourceLine { p with color := true } source)
      (sourceLine { p with color := false } source) := by
    unfold sourceLine
    split
    · next hbracket =>
      have hstarts : StartsVisibly source := by
        rw [Text.startsVisibly_iff, hbracket]
        rfl
      rw [Style.paint_plain]
      exact Style.paintedAtStart_paint .underline h hstarts
    · exact (Path.inert_relativeTo p.cwd h).atEnds.atStart
  unfold heading
  split
  · exact hfeed.atEnds.atStart.append (Inert.atEnds (by decide)).atStart
  · exact hfeed.atEnds.atStart.append (hline.append hfeed.atEnds.atStart)

/-- A table is painted. -/
theorem paintedAtEnds_layOut (p : Presentation) {source : String} (hsource : Inert source) {rows : List Row}
    (hrows : ∀ row ∈ rows, row.Colorable) :
    PaintedAtEnds (layOut { p with color := true } source rows) (layOut { p with color := false } source rows) := by
  have hheading := paintedAtStart_heading p hsource
  have htexts := Style.paintedAtEnds_join fun row hrow =>
    paintedAtEnds_rowText (hrows row hrow) (Widths.ofRows rows) ((Widths.ofRows rows).messageRoom p.columns)
  unfold layOut
  split
  · exact Inert.atEnds (by decide)
  · next hne =>
    have hshows : allBlank (String.join (rows.map (rowTextAmong { p with color := false } rows))) = false := by
      obtain ⟨row, others, hrow⟩ := List.exists_cons_of_ne_nil (mt List.isEmpty_iff.mpr hne)
      exact Text.allBlank_join_eq_false (List.mem_map_of_mem (hrow ▸ List.mem_cons_self))
        (allBlank_rowText false _ _ row)
    exact ⟨hheading.append htexts.atStart, htexts.atEnd.painted_append hshows hheading.painted⟩

end Table

namespace Console

open LintDebt.Text (trim)

/-! ## Notices -/

/-- What is left of a list without repetitions is in the list. -/
theorem mem_of_mem_eraseDupsBy {α : Type} {same : α → α → Bool} {x : α} {xs : List α}
    (h : x ∈ xs.eraseDupsBy same) : x ∈ xs := by
  -- the rest is filtered before it is looked at again, so the induction is on its length
  generalize hn : xs.length = n
  induction n using Nat.strongRecOn generalizing xs with
  | ind n ih =>
    cases xs with
    | nil => exact h
    | cons y rest =>
      rw [List.eraseDupsBy_cons] at h
      rcases List.mem_cons.mp h with rfl | h
      · exact List.mem_cons_self
      · have hshorter : (rest.filter fun z => decide (same z y = false)).length < n :=
          hn ▸ Nat.lt_succ_of_le (List.length_filter_le _ rest)
        exact List.mem_cons_of_mem y (List.mem_of_mem_filter (ih _ hshorter h rfl))

/-- The notices of invalid options are painted. -/
theorem paintedAtEnds_invalidOptions {results : List LintResult} (h : ∀ r ∈ results, r.Colorable) :
    PaintedAtEnds (invalidOptions true results) (invalidOptions false results) := by
  have hfeed : Inert "\n" := by decide
  unfold invalidOptions
  dsimp only
  refine hfeed.atEnds.append (Style.paintedAtEnds_join fun text htext => ?_)
  obtain ⟨r, hr, htext⟩ := List.mem_flatMap.mp (mem_of_mem_eraseDupsBy htext)
  obtain ⟨i, hi, rfl⟩ := List.mem_map.mp htext
  rw [Style.paint_plain]
  exact Style.paintedAtEnds_labelled .red (by decide) (by decide) ((h r hr).invalidOptions i hi)
    hfeed.atEnds.atEnd

/-- The place where a deprecation is explained is painted up to its end. -/
theorem paintedAtEnd_reference {d : Deprecation} (h : ∀ target ∈ d.reference, Paintable target) :
    PaintedAtEnd (reference true d) (reference false d) := by
  unfold reference
  cases hd : d.reference with
  | none => exact (Inert.atEnds (by decide)).atEnd
  | some target =>
    obtain ⟨hinert, hends⟩ := h target hd
    have hunderlined := Style.painted_paint .underline (.refl hinert)
    have hlabel : Painted (Style.dim.paint true " See: ").toList " See: ".toList :=
      Style.painted_paint .dim (.refl (by decide))
    simp only [Style.paint_plain]
    exact (hunderlined.atEnd_paint .dim hends).painted_append hends.allBlank_eq hlabel

/-- The notices of deprecations are painted. -/
theorem paintedAtEnds_deprecations {results : List LintResult} (h : ∀ r ∈ results, r.Colorable) :
    PaintedAtEnds (deprecations true results) (deprecations false results) := by
  have hfeed : Inert "\n" := by decide
  unfold deprecations
  dsimp only
  split
  · exact Inert.atEnds (by decide)
  · refine hfeed.atEnds.append (Style.paintedAtEnds_join fun d hd => ?_)
    obtain ⟨r, hr, hd⟩ := List.mem_flatMap.mp (mem_of_mem_eraseDupsBy hd)
    obtain ⟨htext, htarget⟩ := (h r hr).deprecations d hd
    have hreference := (paintedAtEnd_reference htarget).append hfeed.atEnds.atEnd
    rw [String.append_assoc, @String.append_assoc _ _ "\n", Style.paint_plain]
    exact Style.paintedAtEnds_labelled .yellow (by decide) (by decide) htext hreference

/-! ## Reports -/

/-- What a report shows of a result may be coloured when the result may. -/
theorem colorable_of_mem_visible {includeTodos : Bool} {r : LintResult} (h : r.Colorable) {d : Diagnostic}
    (hd : d ∈ visible includeTodos r) : d.Colorable := by
  rcases List.mem_append.mp (List.mem_of_mem_filter hd) with hwarning | herror
  · exact h.warnings d hwarning
  · obtain ⟨e, he, rfl⟩ := List.mem_map.mp herror
    obtain ⟨htext, hkind⟩ := h.parseErrors e he
    refine ⟨((htext.append (by decide)).append hkind.inert).append (by decide), fun rule hrule => ?_⟩
    cases hrule
    exact hkind

/-- The notices and tables of a report are painted. -/
theorem paintedAtEnds_above (o : Options) (p : Presentation) {results : List LintResult}
    (h : ∀ r ∈ results, r.Colorable) :
    PaintedAtEnds
      (invalidOptions true results ++ deprecations true results ++
        String.join ((results.filter fun r => !r.ignored).map fun r =>
          Table.layOut { p with color := true } r.sourcePath (Table.rows (visible o.includeTodos r))))
      (invalidOptions false results ++ deprecations false results ++
        String.join ((results.filter fun r => !r.ignored).map fun r =>
          Table.layOut { p with color := false } r.sourcePath (Table.rows (visible o.includeTodos r)))) := by
  refine ((paintedAtEnds_invalidOptions h).append (paintedAtEnds_deprecations h)).append
    (Style.paintedAtEnds_join fun r hr => ?_)
  have hresult := h r (List.mem_of_mem_filter hr)
  have hsource : Inert r.sourcePath := by
    unfold LintResult.sourcePath
    cases hsource : r.source with
    | none => decide
    | some source => exact hresult.source source hsource
  refine Table.paintedAtEnds_layOut p hsource fun row hrow => ?_
  obtain ⟨d, hd, rfl⟩ := List.mem_map.mp hrow
  exact .of (colorable_of_mem_visible hresult (List.mem_mergeSort.mp hd))

/-- What a report shows above its counts is painted, and missing only if it is missing without colour. -/
theorem painted_shownBody {s t : String} (h : PaintedAtEnds s t) :
    Painted (shownBody (trim s)).toList (shownBody (trim t)).toList := by
  have hempty : (trim s).isEmpty = (trim t).isEmpty := by
    rw [Bool.eq_iff_iff, String.isEmpty_iff, String.isEmpty_iff, Text.trim_eq_empty_iff, Text.trim_eq_empty_iff,
      h.atStart.allBlank_eq]
  have hfeed : Inert "\n" := by decide
  have hfeeds : Inert "\n\n" := by decide
  unfold shownBody
  rw [hempty]
  split
  · exact .nil
  · exact Style.painted_append (Style.painted_append (.refl hfeed) h.trim) (.refl hfeeds)

/-- No sequence starts in the counts of a report. -/
theorem inert_tally (includeTodos : Bool) (c : Counts) : Inert (tally includeTodos c) := by
  have hproblems : Inert (counted c.problems "problem") := Style.inert_counted _ (by decide)
  have herrors : Inert (counted c.errors "error") := Style.inert_counted _ (by decide)
  have hwarnings : Inert (counted c.warnings "warning") := Style.inert_counted _ (by decide)
  have htodos : Inert (counted c.todos "todo") := Style.inert_counted _ (by decide)
  have hend : Inert (if includeTodos then ", " ++ counted c.todos "todo" else "") := by
    split
    · exact Inert.append (by decide) htodos
    · decide
  unfold tally
  split
  · decide
  · exact ((((((hproblems.append (by decide)).append herrors).append (by decide)).append hwarnings).append
      hend).append (by decide)).append (by decide)

/-- No sequence starts in the summary of a report. -/
theorem inert_summaryText (o : Options) : Inert (summaryText o) := by
  unfold summaryText
  split
  · split
    · exact Summary.inert_text _
    · decide
  · decide

/-- The style sequences are all that tells a report in colour from a plain one, whatever its options and the
width of the terminal are: when no text in the results has an escape character, and the rules, kinds of parse
errors, texts of notices and references that are there are neither empty nor end in a blank, deleting the
sequences from the coloured report gives the plain one. -/
theorem strip_render (o : Options) (p : Presentation) {results : List LintResult}
    (h : ∀ r ∈ results, r.Colorable) :
    strip (render o { p with color := true } results) = render o { p with color := false } results := by
  have hpainted : Painted (render o { p with color := true } results).toList
      (render o { p with color := false } results).toList := by
    rw [render_tables, render_tables]
    exact Style.painted_append
      (Style.painted_append (painted_shownBody (paintedAtEnds_above o p h)) (.refl (inert_tally _ _)))
      (.refl (inert_summaryText o))
  rw [strip, hpainted.stripped_eq, String.ofList_toList]

/-- A result with a source in angle brackets, a todo, a parse error without a position, and notices of either
kind. -/
def exampleColored : LintResult where
  source := some "<input css>"
  warnings := [{ line := 3, column := 1, rule := some "color", severity := .todo, text := "Deferred (color)" }]
  parseErrors := [{ kind := "syntax", text := "Unclosed block" }]
  deprecations := [{ text := "Renamed.", reference := some "rules/color" }]
  invalidOptions := [{ text := "Unknown option" }]

/-- A coloured report on all kinds of things is the plain one without its style sequences. -/
theorem strip_render_of_example :
    (∀ r ∈ [exampleColored], r.Colorable) ∧
      strip (render { includeTodos := true } { color := true, columns := some 80, cwd := "/repo" } [exampleColored]) =
        render { includeTodos := true } { color := false, columns := some 80, cwd := "/repo" } [exampleColored] := by
  have h : ∀ r ∈ [exampleColored], r.Colorable := by
    intro r hr
    rw [List.mem_singleton.mp hr]
    refine ⟨by decide, fun d hd => ?_, by decide +kernel, by decide +kernel, by decide +kernel⟩
    rw [List.mem_singleton.mp hd]
    exact ⟨by decide +kernel, by decide +kernel⟩
  exact ⟨h, strip_render { includeTodos := true } { columns := some 80, cwd := "/repo" } h⟩

end Console

end LintDebt
