import LintDebt.Proofs.Report.Color
import LintDebt.Proofs.Report.Wrap

/-!
# The layout of a table

The columns of a table are as wide as the widest cell, so every cell fits in its column and what stands in front
of a message is as wide in every row, with a position or without.  Messages start in one column; rules do, as
long as messages need not be wrapped; and when they are, a row leaves the last column of the terminal free.

* `LintDebt.Table.Widths.Fits`, `LintDebt.Table.Widths.fits_ofRows`: widths that leave room for a row, and for all.
* `LintDebt.Table.width_lead`, `LintDebt.Table.colonAt_lead`: where the message of a row starts, and its colon is.
* `LintDebt.Table.width_firstLine`: a row is as wide as its cells and what separates them.
* `LintDebt.Table.tableLines?`, `LintDebt.Table.tableLines?_eq`: no number is taken from a smaller one.
* `LintDebt.Table.Row.LaidOut`, `LintDebt.Table.rows_laidOut`: the layout of a row, and of every table.
-/

namespace LintDebt.Table

open LintDebt.Text (displayWidth IsPrintable trimEnd)

/-! ## Widths of texts -/

section

variable {n : Nat} {s t : String}

/-- The margin of a row is a space. -/
theorem margin_eq : " " = blanks 1 := rfl

/-- The gap between two cells is two spaces. -/
theorem gap_eq : "  " = blanks 2 := rfl

theorem width_ofList (s : List Char) : width (String.ofList s) = displayWidth s :=
  congrArg displayWidth String.toList_ofList

/-- Spaces behind spaces are spaces. -/
theorem blanks_append (m n : Nat) : blanks m ++ blanks n = blanks (m + n) := by
  apply String.toList_injective
  simp only [blanks, String.toList_append, String.toList_ofList, List.replicate_append_replicate]

/-- Spaces behind a text take a column each. -/
theorem width_append_blanks (s : String) (n : Nat) : width (s ++ blanks n) = width s + n := by
  show displayWidth (s ++ blanks n).toList = _
  rw [String.toList_append, blanks, String.toList_ofList, Text.displayWidth_append_spaces]
  rfl

/-- Spaces in front of a text take a column each. -/
theorem width_blanks_append (n : Nat) (s : String) : width (blanks n ++ s) = n + width s := by
  show displayWidth (blanks n ++ s).toList = _
  rw [String.toList_append, blanks, String.toList_ofList, Text.displayWidth_spaces_append]
  rfl

/-- Widths add up where there are spaces. -/
theorem width_append_blanks_append (hn : 0 < n) (s t : String) :
    width (s ++ blanks n ++ t) = width s + n + width t := by
  obtain ⟨n, rfl⟩ := Nat.exists_eq_succ_of_ne_zero (Nat.ne_of_gt hn)
  have hlist : (s ++ blanks (n + 1) ++ t).toList = s.toList ++ ' ' :: (List.replicate n ' ' ++ t.toList) := by
    rw [String.toList_append, String.toList_append, blanks, String.toList_ofList, List.append_assoc]
    rfl
  show displayWidth (s ++ blanks (n + 1) ++ t).toList = displayWidth s.toList + (n + 1) + displayWidth t.toList
  rw [hlist, Text.displayWidth_append_space, Text.displayWidth_spaces_append]
  omega

/-- A text that fits is padded at its end to just the width. -/
theorem width_padEnd (h : width s ≤ n) : width (padEnd n s) = n := by
  rw [padEnd, width_append_blanks]
  omega

/-- A text that fits is padded at its start to just the width. -/
theorem width_padStart (h : width s ≤ n) : width (padStart n s) = n := by
  rw [padStart, width_blanks_append]
  omega

/-- Printable ASCII characters take one column each, also side by side with others. -/
theorem width_append_of_isPrintable (hs : ∀ c ∈ s.toList, IsPrintable c) (ht : ∀ c ∈ t.toList, IsPrintable c) :
    width (s ++ t) = width s + width t := by
  have hst : ∀ c ∈ (s ++ t).toList, IsPrintable c := by
    rw [String.toList_append]
    exact List.forall_mem_append.mpr ⟨hs, ht⟩
  have hwidth : ∀ {u : String}, (∀ c ∈ u.toList, IsPrintable c) → width u = u.toList.length :=
    fun hu => Text.displayWidth_of_isPrintable hu
  rw [hwidth hs, hwidth ht, hwidth hst, String.toList_append, List.length_append]

end

/-! ## Widths of columns -/

namespace Widths

/-- Widths that leave room for each cell of a row. -/
structure Fits (w : Widths) (row : Row) : Prop where
  line : width row.line ≤ w.line
  column : width row.column ≤ w.column
  symbol : width row.severity.symbol ≤ w.symbol
  message : displayWidth row.message ≤ w.message
  rule : width row.rule ≤ w.rule

/-- Widened for a row, widths leave room for it. -/
theorem fits_widen (w : Widths) (row : Row) : (w.widen row).Fits row where
  line := Nat.le_max_right ..
  column := Nat.le_max_right ..
  symbol := Nat.le_max_right ..
  message := Nat.le_max_right ..
  rule := Nat.le_max_right ..

/-- Widened for another row, widths still leave room for a row. -/
theorem Fits.widen {w : Widths} {row : Row} (h : w.Fits row) (other : Row) : (w.widen other).Fits row where
  line := Nat.le_trans h.line (Nat.le_max_left ..)
  column := Nat.le_trans h.column (Nat.le_max_left ..)
  symbol := Nat.le_trans h.symbol (Nat.le_max_left ..)
  message := Nat.le_trans h.message (Nat.le_max_left ..)
  rule := Nat.le_trans h.rule (Nat.le_max_left ..)

/-- Widened for some rows, widths leave room for these and for those they left room for. -/
theorem fits_foldl {w : Widths} {rows : List Row} {row : Row} (h : w.Fits row ∨ row ∈ rows) :
    (rows.foldl Widths.widen w).Fits row := by
  induction rows generalizing w with
  | nil => exact h.resolve_right List.not_mem_nil
  | cons other rows ih =>
    refine ih ?_
    rcases h with hfits | hmem
    · exact Or.inl (hfits.widen other)
    · rcases List.mem_cons.mp hmem with rfl | hmem
      · exact Or.inl (fits_widen w row)
      · exact Or.inr hmem

/-- The widths of the columns leave room for every row. -/
theorem fits_ofRows {rows : List Row} {row : Row} (h : row ∈ rows) : (ofRows rows).Fits row :=
  fits_foldl (Or.inr h)

end Widths

/-! ## What stands in front of a message -/

/-- A row with numbers for its position, or without. -/
structure Row.IsNumbered (row : Row) : Prop where
  line : ∀ c ∈ row.line.toList, c.isDigit = true
  column : ∀ c ∈ row.column.toList, c.isDigit = true

/-- A number of a position is made of digits. -/
theorem isDigit_of_mem_numberCell {n : UInt32} {c : Char} (h : c ∈ (numberCell n).toList) : c.isDigit = true := by
  unfold numberCell at h
  split at h
  · cases h
  · exact Text.isDigit_of_mem_decimalDigits (Nat.toList_repr ▸ h)

/-- The rows of diagnostics have numbers for their position. -/
theorem Row.isNumbered_of_mem_rows {diagnostics : List Diagnostic} {row : Row} (h : row ∈ rows diagnostics) :
    row.IsNumbered := by
  obtain ⟨d, -, rfl⟩ := List.mem_map.mp h
  exact ⟨fun c => isDigit_of_mem_numberCell, fun c => isDigit_of_mem_numberCell⟩

/-- Digits are printable. -/
theorem isPrintable_of_isDigit {c : Char} (h : c.isDigit = true) : IsPrintable c := by
  have hbounds := Char.isDigit_iff_toNat.mp h
  have hzero : '0'.toNat = 48 := rfl
  have hnine : '9'.toNat = 57 := rfl
  unfold IsPrintable
  omega

/-- The sign of a severity takes one column. -/
theorem width_symbol (s : Severity) : width s.symbol = 1 := by
  cases s <;> decide +kernel

/-- A text whose first colon stands behind a number of columns. -/
def ColonAt (n : Nat) (s : String) : Prop :=
  ∃ front back : String, s = front ++ ":" ++ back ∧ ':' ∉ front.toList ∧ width front = n

section

variable {w : Widths} {row : Row}

/-- A position takes as many columns as its parts side by side. -/
theorem width_joined (hrow : row.IsNumbered) :
    width (row.line ++ ":" ++ row.column) = width row.line + 1 + width row.column := by
  have hline : ∀ c ∈ row.line.toList, IsPrintable c := fun c hc => isPrintable_of_isDigit (hrow.line c hc)
  have hcolumn : ∀ c ∈ row.column.toList, IsPrintable c := fun c hc => isPrintable_of_isDigit (hrow.column c hc)
  have hcolon : ∀ c ∈ ":".toList, IsPrintable c := List.forall_mem_singleton.mpr (by decide)
  have hfront : ∀ c ∈ (row.line ++ ":").toList, IsPrintable c := by
    rw [String.toList_append]
    exact List.forall_mem_append.mpr ⟨hline, hcolon⟩
  rw [width_append_of_isPrintable hfront hcolumn, width_append_of_isPrintable hline hcolon]
  rfl

/-- The numbers of a position stand on both sides of the colon, each with the spaces that its column leaves. -/
theorem positionCell_eq (h : w.Fits row) (hrow : row.IsNumbered)
    (hboth : ¬(row.line.isEmpty || row.column.isEmpty) = true) :
    positionCell false w row =
      blanks (w.line - width row.line) ++ (row.line ++ ":" ++ row.column) ++ blanks (w.column - width row.column) := by
  have hline := h.line
  have hcolumn := h.column
  have hjoined := width_joined hrow
  have hleft : min (w.line - width row.line) (w.line + w.column + 1 - width (row.line ++ ":" ++ row.column)) =
      w.line - width row.line := by omega
  have hright : w.line + w.column + 1 - width (row.line ++ ":" ++ row.column) - (w.line - width row.line) =
      w.column - width row.column := by omega
  unfold positionCell
  dsimp only
  rw [if_neg hboth, Style.paint_plain, hleft, hright]

/-- A position takes the columns of line and column and one between them. -/
theorem width_positionCell (h : w.Fits row) (hrow : row.IsNumbered) :
    width (positionCell false w row) = w.line + 1 + w.column := by
  by_cases hboth : (row.line.isEmpty || row.column.isEmpty) = true
  · rw [positionCell, if_pos hboth, margin_eq, width_append_blanks_append Nat.one_pos, width_padStart h.line,
      width_padEnd h.column]
  · have hline := h.line
    have hcolumn := h.column
    rw [positionCell_eq h hrow hboth, width_append_blanks, width_blanks_append, width_joined hrow]
    omega

/-- A sign takes its column. -/
theorem width_symbolCell (h : w.Fits row) : width (symbolCell false w row) = w.symbol := by
  have hsign := width_symbol row.severity
  have hfits := h.symbol
  unfold symbolCell Severity.paintedSymbol
  dsimp only
  rw [Style.paint_plain, width_append_blanks, width_blanks_append, hsign]
  omega

/-- What stands in front of a message takes the columns up to it. -/
theorem width_lead (h : w.Fits row) (hrow : row.IsNumbered) : width (lead false w row) = w.messageIndent := by
  unfold lead
  rw [margin_eq, gap_eq, width_append_blanks, width_append_blanks_append Nat.two_pos, width_blanks_append,
    width_positionCell h hrow, width_symbolCell h, Widths.messageIndent]
  omega

/-- The colon of a position stands behind the column of lines. -/
theorem colonAt_lead (h : w.Fits row) (hrow : row.IsNumbered) (hline : row.line ≠ "") (hcolumn : row.column ≠ "") :
    ColonAt (w.line + 1) (lead false w row) := by
  have hboth : ¬(row.line.isEmpty || row.column.isEmpty) = true := by
    simp [String.isEmpty_iff, hline, hcolumn]
  refine ⟨blanks (1 + (w.line - width row.line)) ++ row.line,
    row.column ++ blanks (w.column - width row.column) ++ "  " ++ symbolCell false w row ++ "  ", ?_, ?_, ?_⟩
  · rw [lead, positionCell_eq h hrow hboth, margin_eq, ← blanks_append]
    simp only [String.append_assoc]
  · have hblanks : ':' ∉ (blanks (1 + (w.line - width row.line))).toList := by
      rw [blanks, String.toList_ofList]
      intro hmem
      exact absurd (List.eq_of_mem_replicate hmem) (by decide)
    have hdigits : ':' ∉ row.line.toList := fun hmem => Text.ne_of_isDigit (hrow.line _ hmem) (by decide) rfl
    rw [String.toList_append, List.mem_append, not_or]
    exact ⟨hblanks, hdigits⟩
  · have hfits := h.line
    rw [width_blanks_append]
    omega

/-- Without style sequences the same stands in front of a message, painted or not. -/
theorem strip_lead {diagnostics : List Diagnostic} (h : row ∈ rows diagnostics) (w : Widths) (color : Bool) :
    Style.strip (lead color w row) = lead false w row := by
  obtain ⟨d, -, rfl⟩ := List.mem_map.mp h
  -- the message and the rule do not matter here, so they may be taken to be empty
  let silent : Diagnostic := { d with text := "", rule := none }
  have hsilent : Style.Inert "" := by decide
  have hcolorable : silent.Colorable := ⟨hsilent, fun _ hrule => nomatch hrule⟩
  have hpainted : Style.Painted (lead true w (Row.of d)).toList (lead false w (Row.of d)).toList :=
    (paintedAtEnds_lead (Row.Colorable.of hcolorable) w).atStart.painted
  have hstripped : Style.stripped (lead color w (Row.of d)).toList = (lead false w (Row.of d)).toList := by
    cases color with
    | true => exact hpainted.stripped_eq
    | false => exact (Style.Painted.refl hpainted.escape_not_mem).stripped_eq
  rw [Style.strip, hstripped, String.ofList_toList]

end

/-! ## Rows -/

/-- What stands in front of a rule is as wide as what stands in front of the message, the message and the spaces
behind it. -/
theorem width_message (w : Widths) (row : Row) (message : String) :
    width (lead false w row ++ message ++ "  ") = width (lead false w row) + width message + 2 := by
  obtain ⟨front, hfront⟩ : ∃ front, lead false w row = front ++ blanks 2 := ⟨_, rfl⟩
  rw [gap_eq, width_append_blanks, hfront, width_append_blanks_append Nat.two_pos, width_append_blanks]

/-- A row is as wide as its cells and the spaces between them. -/
theorem width_firstLine (w : Widths) (room : Nat) (row : Row) (chunk : List Char) :
    width (firstLine false w room row chunk) =
      width (lead false w row) + width (padEnd room (String.ofList chunk)) + 2 + width row.rule := by
  have hmessage := width_message w row (padEnd room (String.ofList chunk))
  rw [gap_eq, width_append_blanks] at hmessage
  unfold firstLine
  rw [Style.paint_plain, gap_eq, width_append_blanks_append Nat.two_pos, hmessage]

/-- The columns of a table and what separates them leave the last column of the terminal free, as long as there is
room for more than one column of the messages. -/
theorem Widths.columns_le {w : Widths} {n : Nat} (hroom : 1 < w.messageRoom (some n)) :
    w.messageIndent + w.messageRoom (some n) + 2 + w.rule ≤ max n leastColumns - 1 := by
  unfold messageRoom at hroom ⊢
  unfold messageIndent total margins at *
  dsimp only at hroom ⊢
  split at hroom
  · next hfits =>
    rw [if_pos hfits]
    omega
  · next hnarrow =>
    rw [if_neg hnarrow]
    omega

example : (⟨2, 2, 1, 100, 10⟩ : Widths).messageRoom (some 100) = 76 := by decide

/-- A row with a part of its message that fits leaves the last column of the terminal free, as does a further line of
it, as long as there is room for more than one column of the messages. -/
theorem width_firstLine_le {w : Widths} {row : Row} {n : Nat} {chunk : List Char} (h : w.Fits row)
    (hrow : row.IsNumbered) (hroom : 1 < w.messageRoom (some n))
    (hchunk : displayWidth chunk ≤ w.messageRoom (some n)) :
    width (firstLine false w (w.messageRoom (some n)) row chunk) ≤ max n Widths.leastColumns - 1 ∧
      width (blanks w.messageIndent ++ String.ofList chunk) ≤ max n Widths.leastColumns - 1 := by
  have hcolumns := Widths.columns_le hroom
  have hrule := h.rule
  rw [width_firstLine, width_lead h hrow, width_padEnd ((width_ofList chunk).trans_le hchunk), width_blanks_append,
    width_ofList]
  omega

/-! ## Subtractions -/

/-- What is left of a number when another is taken away that is not larger. -/
def sub? (a b : Nat) : Option Nat :=
  if b ≤ a then some (a - b) else none

theorem sub?_of_le {a b : Nat} (h : b ≤ a) : sub? a b = some (a - b) :=
  if_pos h

/-- The width of the message column, where a number is only taken from one that is not smaller. -/
def Widths.messageRoom? (w : Widths) : Option Nat → Option Nat
  | none => some w.message
  | some n =>
    let available := max n leastColumns
    if available > w.total + margins then some w.message
    else (sub? w.total w.message).map fun others => max 1 (available - (others + margins))

/-- The position of a row, where a number is only taken from one that is not smaller. -/
def positionCell? (color : Bool) (w : Widths) (row : Row) : Option String :=
  if row.line.isEmpty || row.column.isEmpty then
    some (padStart w.line row.line ++ " " ++ padEnd w.column row.column)
  else do
    let joined := row.line ++ ":" ++ row.column
    let free ← sub? (w.line + w.column + 1) (width joined)
    let left := min (w.line - width row.line) free
    let right ← sub? free left
    some (blanks left ++ Style.dim.paint color joined ++ blanks right)

/-- The sign of a row, where a number is only taken from one that is not smaller. -/
def symbolCell? (color : Bool) (w : Widths) (row : Row) : Option String := do
  let free := w.symbol - 1
  let right ← sub? free (free / 2)
  some (blanks (free / 2) ++ row.severity.paintedSymbol color ++ blanks right)

/-- The lines of a row, where a number is only taken from one that is not smaller. -/
def rowLines? (color : Bool) (w : Widths) (room : Nat) (row : Row) : Option (List String) := do
  let position ← positionCell? color w row
  let sign ← symbolCell? color w row
  let chunks := ruler.wrap room row.message
  let first := " " ++ position ++ "  " ++ sign ++ "  " ++ padEnd room (String.ofList (chunks.headD [])) ++ "  " ++
    Style.dim.paint color row.rule
  some (trimEnd first :: chunks.tail.map (furtherLine w))

/-- The lines of a table, where a number is only taken from one that is not smaller. -/
def tableLines? (p : Presentation) (source : String) (diagnostics : List Diagnostic) : Option (List String) := do
  let rows := rows diagnostics
  let w := Widths.ofRows rows
  let room ← w.messageRoom? p.columns
  let lines ← rows.mapM (rowLines? p.color w room)
  some ((if source.isEmpty then [] else [sourceLine p source]) ++ lines.flatten)

/-- The message column is not wider than all columns together. -/
theorem messageRoom?_eq (w : Widths) (columns : Option Nat) :
    w.messageRoom? columns = some (w.messageRoom columns) := by
  have htotal : w.message ≤ w.total := by
    unfold Widths.total
    omega
  cases columns with
  | none => rfl
  | some n =>
    unfold Widths.messageRoom? Widths.messageRoom
    dsimp only
    rw [sub?_of_le htotal]
    split <;> rfl

/-- A row that fits has its lines. -/
theorem rowLines?_eq {w : Widths} {row : Row} (h : w.Fits row) (hrow : row.IsNumbered) (color : Bool) (room : Nat) :
    rowLines? color w room row = some (rowLines color w room row) := by
  have hposition : positionCell? color w row = some (positionCell color w row) := by
    have hjoined : width (row.line ++ ":" ++ row.column) ≤ w.line + w.column + 1 := by
      have hline := h.line
      have hcolumn := h.column
      rw [width_joined hrow]
      omega
    unfold positionCell? positionCell
    dsimp only
    rw [sub?_of_le hjoined, Option.bind_eq_bind, Option.bind_some, sub?_of_le (Nat.min_le_right ..)]
    split <;> rfl
  have hsign : symbolCell? color w row = some (symbolCell color w row) := by
    unfold symbolCell?
    dsimp only
    rw [sub?_of_le (Nat.div_le_self ..)]
    rfl
  unfold rowLines?
  rw [hposition, hsign]
  rfl

/-- What succeeds for all elements of a list succeeds for the list. -/
theorem mapM_eq_some {α β : Type} {f : α → Option β} {g : α → β} {xs : List α} (h : ∀ x ∈ xs, f x = some (g x)) :
    xs.mapM f = some (xs.map g) := by
  induction xs with
  | nil => rfl
  | cons x xs ih =>
    obtain ⟨hx, hxs⟩ := List.forall_mem_cons.mp h
    rw [List.mapM_cons, hx, ih hxs]
    rfl

/-- The lines of a table are put together without taking a number from a smaller one. -/
theorem tableLines?_eq (p : Presentation) (source : String) (diagnostics : List Diagnostic) :
    tableLines? p source diagnostics = some (tableLines p source diagnostics) := by
  have hrows : ∀ room, ∀ row ∈ rows diagnostics, rowLines? p.color (Widths.ofRows (rows diagnostics)) room row =
      some (rowLines p.color (Widths.ofRows (rows diagnostics)) room row) :=
    fun room row hmem => rowLines?_eq (Widths.fits_ofRows hmem) (Row.isNumbered_of_mem_rows hmem) p.color room
  unfold tableLines?
  dsimp only
  rw [messageRoom?_eq, Option.bind_eq_bind, Option.bind_some, mapM_eq_some (hrows _)]
  rfl

/-! ## Tables -/

/-- Messages are not wrapped: there is no terminal, or it leaves room for the columns and what separates them. -/
def Widths.Unlimited (w : Widths) (columns : Option Nat) : Prop :=
  ∀ n ∈ columns, w.total + margins < max n leastColumns

/-- Where there is room for every message, its column is as wide as the longest. -/
theorem Widths.Unlimited.messageRoom_eq {w : Widths} {columns : Option Nat} (h : w.Unlimited columns) :
    w.messageRoom columns = w.message := by
  cases columns with
  | none => rfl
  | some n => exact if_pos (h n rfl)

/-- A further line of a row starts with the spaces up to the message, and no more. -/
theorem exists_of_mem_tail_rowLines {color : Bool} {w : Widths} {room : Nat} {row : Row} {line : String}
    (h : line ∈ (rowLines color w room row).tail) :
    ∃ text : String, line = blanks w.messageIndent ++ text ∧ text.toList.head? ≠ some ' ' := by
  obtain ⟨chunk, hchunk, rfl⟩ := List.mem_map.mp h
  refine ⟨trimEnd (String.ofList chunk), rfl, fun hhead => ruler.head?_ne_of_mem_tail_wrap room hchunk ?_⟩
  obtain ⟨back, -, hback⟩ := Text.exists_eq_trimEnd_append (String.ofList chunk)
  have hchars : chunk = (trimEnd (String.ofList chunk)).toList ++ back.toList := by
    rw [← String.toList_append, ← hback, String.toList_ofList]
  rw [hchars, List.head?_append, hhead, Option.some_or]

/-- A row of a table with columns of some widths. -/
structure Row.LaidOut (p : Presentation) (w : Widths) (row : Row) : Prop where
  /-- What stands in front of the message takes the columns of position and sign, and six more. -/
  lead : ∀ color, width (Style.strip (lead color w row)) = w.line + w.column + w.symbol + 6
  /-- The colon of a position stands right behind the column of lines. -/
  colon : row.line ≠ "" → row.column ≠ "" → ∀ color, ColonAt (w.line + 1) (Style.strip (Table.lead color w row))
  /-- Further lines of the message start with as many spaces. -/
  further : ∀ line ∈ (rowLines p.color w (w.messageRoom p.columns) row).tail, ∃ text : String,
    line = blanks (w.line + w.column + w.symbol + 6) ++ text ∧ text.toList.head? ≠ some ' '
  /-- A row is as wide as its cells and what separates them. -/
  sum : ∀ room chunk, width (firstLine false w room row chunk) =
    width (Table.lead false w row) + width (padEnd room (String.ofList chunk)) + 2 + width row.rule
  /-- A row that is not wrapped is one line, with the message padded to its column and the rule behind that. -/
  unlimited : w.Unlimited p.columns →
    let message := padEnd (w.messageRoom p.columns) (String.ofList row.message)
    rowLines p.color w (w.messageRoom p.columns) row =
        [trimEnd (Table.lead p.color w row ++ message ++ "  " ++ Style.dim.paint p.color row.rule)] ∧
      width message = w.message ∧
      ∀ color, width (Style.strip (Table.lead color w row) ++ message ++ "  ") =
        w.line + w.column + w.symbol + 6 + w.message + 2
  /-- On a terminal that leaves room for more than one column, a row with a part of its message that fits leaves the
  last column free, as does a further line with such a part. -/
  limited : ∀ n, p.columns = some n → 1 < w.messageRoom p.columns →
    ∀ chunk, displayWidth chunk ≤ w.messageRoom p.columns →
      width (firstLine false w (w.messageRoom p.columns) row chunk) ≤ max n Widths.leastColumns - 1 ∧
      width (blanks (w.line + w.column + w.symbol + 6) ++ String.ofList chunk) ≤ max n Widths.leastColumns - 1

/-- The table of any diagnostics, on a terminal of any width or on none, takes no number from a smaller one, and its
rows are laid out in common columns. -/
theorem rows_laidOut (p : Presentation) (source : String) (diagnostics : List Diagnostic) :
    tableLines? p source diagnostics = some (tableLines p source diagnostics) ∧
      ∀ row ∈ rows diagnostics, row.LaidOut p (Widths.ofRows (rows diagnostics)) := by
  refine ⟨tableLines?_eq p source diagnostics, fun row hmem => ?_⟩
  have hfits : (Widths.ofRows (rows diagnostics)).Fits row := Widths.fits_ofRows hmem
  have hrow := Row.isNumbered_of_mem_rows hmem
  generalize Widths.ofRows (rows diagnostics) = w at hfits
  have hlead := width_lead hfits hrow
  have hstrip := strip_lead hmem w
  constructor
  case lead => exact fun color => (congrArg width (hstrip color)).trans hlead
  case colon =>
    intro hline hcolumn color
    rw [hstrip]
    exact colonAt_lead hfits hrow hline hcolumn
  case further => exact fun _ => exists_of_mem_tail_rowLines
  case sum => exact fun room chunk => width_firstLine w room row chunk
  case unlimited =>
    intro hcolumns
    have hmessage := width_padEnd ((width_ofList row.message).trans_le hfits.message)
    have hwrap : ruler.wrap w.message row.message = [row.message] := if_pos (Or.inl hfits.message)
    dsimp only
    rw [hcolumns.messageRoom_eq]
    refine ⟨?_, hmessage, fun color => ?_⟩
    · rw [rowLines, hwrap]
      rfl
    · rw [hstrip, width_message, hmessage, hlead]
      rfl
  case limited =>
    intro n hcolumns hroom chunk hchunk
    rw [hcolumns] at hroom hchunk ⊢
    exact width_firstLine_le hfits hrow hroom hchunk

end LintDebt.Table
