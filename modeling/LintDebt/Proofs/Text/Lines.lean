import LintDebt.Text.Lines

/-!
# Lines of texts put together

* `LintDebt.Text.split_append_cons`: a text is split at a separator in its middle.
* `LintDebt.Text.split_intercalate`: pieces that were put together are taken apart again.
* `LintDebt.Text.EndsLine`: a text to which whole lines can be added.
* `LintDebt.Text.lines_append`: behind such a text the lines of another follow.
* `LintDebt.Text.lines_line`: a line by itself is read as it stands.
* `LintDebt.Text.subset_of_mem_lines`: a line holds only characters of the text.
-/

namespace LintDebt.Text

/-! ## Pieces -/

/-- A text is split at a separator in its middle into the pieces of both sides. -/
theorem split_append_cons (separator : Char) (s t : List Char) :
    split separator (s ++ separator :: t) = split separator s ++ split separator t := by
  induction s with
  | nil => simp [split]
  | cons c s ih =>
    by_cases hc : c = separator
    · simp [split, hc, ih]
    · obtain ⟨piece, pieces, hsplit⟩ := List.exists_cons_of_ne_nil (split_ne_nil separator s)
      rw [hsplit] at ih
      simp [split, hc, ih, hsplit]

/-- A text without the separator is one piece. -/
theorem split_of_not_mem {separator : Char} {s : List Char} (h : separator ∉ s) :
    split separator s = [s] := by
  induction s with
  | nil => rfl
  | cons c s ih =>
    rw [List.mem_cons, not_or] at h
    simp [split, Ne.symm h.1, ih h.2]

/-- No piece of a text holds the separator. -/
theorem not_mem_of_mem_split {separator : Char} {s piece : List Char} (h : piece ∈ split separator s) :
    separator ∉ piece := by
  induction s generalizing piece with
  | nil =>
    rw [split, List.mem_singleton] at h
    exact h ▸ List.not_mem_nil
  | cons c s ih =>
    obtain ⟨first, others, hsplit⟩ := List.exists_cons_of_ne_nil (split_ne_nil separator s)
    rw [hsplit] at ih
    rw [split, hsplit] at h
    split at h
    · rcases List.mem_cons.mp h with rfl | h
      · exact List.not_mem_nil
      · exact ih h
    · next hc =>
      rcases List.mem_cons.mp h with rfl | h
      · exact List.not_mem_cons_of_ne_of_not_mem (Ne.symm hc) (ih List.mem_cons_self)
      · exact ih (List.mem_cons_of_mem first h)

/-- Pieces that were put together with a separator between them are taken apart again. -/
theorem split_intercalate {separator : Char} {pieces : List (List Char)} (hne : pieces ≠ [])
    (h : ∀ piece ∈ pieces, separator ∉ piece) :
    split separator ([separator].intercalate pieces) = pieces := by
  induction pieces with
  | nil => exact absurd rfl hne
  | cons piece rest ih =>
    have hpiece := split_of_not_mem (h piece List.mem_cons_self)
    cases rest with
    | nil => rw [List.intercalate_singleton, hpiece]
    | cons next rest =>
      have hrest := ih (List.cons_ne_nil next rest) fun p hp => h p (List.mem_cons_of_mem piece hp)
      rw [List.intercalate_cons_cons, List.append_assoc, List.singleton_append, split_append_cons, hpiece,
        hrest, List.singleton_append]

/-- The pieces before others are all lines that end. -/
theorem linesOfPieces_append (pieces : List (List Char)) {rest : List (List Char)}
    (h : rest ≠ []) :
    linesOfPieces (pieces ++ rest) = pieces.map dropReturn ++ linesOfPieces rest := by
  induction pieces with
  | nil => rfl
  | cons piece pieces ih =>
    obtain ⟨next, others, hnext⟩ := List.exists_cons_of_ne_nil
      (List.append_ne_nil_of_right_ne_nil pieces h)
    have hstep : linesOfPieces (piece :: (pieces ++ rest)) =
        dropReturn piece :: linesOfPieces (pieces ++ rest) := by
      rw [hnext, linesOfPieces.eq_def]
    rw [List.cons_append, hstep, ih]
    rfl

/-! ## Lines -/

/-- Whole lines can be added to the text: it is empty, or it ends with a line feed. -/
def EndsLine (s : String) : Prop :=
  s = "" ∨ ∃ t : List Char, s.toList = t ++ ['\n']

/-- The lines of a text up to a line feed and those behind it. -/
theorem lines_of_toList_eq {s : String} {t rest : List Char} (h : s.toList = t ++ '\n' :: rest) :
    lines s = (split '\n' t).map (String.ofList ∘ dropReturn) ++ lines (String.ofList rest) := by
  unfold lines
  rw [h, split_append_cons, linesOfPieces_append _ (split_ne_nil _ _), List.map_append,
    List.map_map, String.toList_ofList]

/-- Behind a text that ends a line the lines of another follow. -/
theorem lines_append {s : String} (h : EndsLine s) (t : String) :
    lines (s ++ t) = lines s ++ lines t := by
  rcases h with rfl | ⟨u, hu⟩
  · simp [lines, split, linesOfPieces]
  · have happend : (s ++ t).toList = u ++ '\n' :: t.toList := by
      rw [String.toList_append, hu, List.append_assoc]
      rfl
    have hnil : lines (String.ofList []) = [] := by
      simp [lines, split, linesOfPieces]
    rw [lines_of_toList_eq happend, lines_of_toList_eq hu, hnil, List.append_nil,
      String.ofList_toList]

/-- A text that ends a line still does so behind any other. -/
theorem EndsLine.append_line (s t : String) : EndsLine (s ++ t ++ "\n") := by
  right
  exact ⟨(s ++ t).toList, by rw [String.toList_append]; rfl⟩

/-- A line without line feeds and without a carriage return at its end is read as it stands. -/
theorem lines_line {line : String} (hfeed : '\n' ∉ line.toList)
    (hreturn : line.toList.getLast? ≠ some '\r') : lines (line ++ "\n") = [line] := by
  have hform : (line ++ "\n").toList = line.toList ++ '\n' :: [] := by
    rw [String.toList_append]
    rfl
  rw [lines_of_toList_eq hform, split_of_not_mem hfeed]
  have hkeep : dropReturn line.toList = line.toList := if_neg hreturn
  simp [hkeep, lines, split, linesOfPieces]

/-! ## Characters -/

/-- A piece of a text holds only characters of the text. -/
theorem subset_of_mem_split {separator : Char} {s piece : List Char} (h : piece ∈ split separator s) :
    piece ⊆ s := by
  induction s generalizing piece with
  | nil =>
    rw [split, List.mem_singleton] at h
    exact h ▸ List.Subset.refl _
  | cons c s ih =>
    obtain ⟨first, others, hsplit⟩ := List.exists_cons_of_ne_nil (split_ne_nil separator s)
    rw [hsplit] at ih
    rw [split, hsplit] at h
    split at h
    · rcases List.mem_cons.mp h with rfl | h
      · exact List.nil_subset _
      · exact List.subset_cons_of_subset c (ih h)
    · rcases List.mem_cons.mp h with rfl | h
      · exact List.cons_subset_cons c (ih List.mem_cons_self)
      · exact List.subset_cons_of_subset c (ih (List.mem_cons_of_mem first h))

/-- A line holds only characters of one of the pieces between line feeds. -/
theorem exists_subset_of_mem_linesOfPieces {pieces : List (List Char)} {line : List Char}
    (h : line ∈ linesOfPieces pieces) : ∃ piece ∈ pieces, line ⊆ piece := by
  induction pieces with
  | nil => cases h
  | cons piece pieces ih =>
    cases pieces with
    | nil =>
      rw [linesOfPieces] at h
      split at h
      · cases h
      · exact ⟨piece, List.mem_cons_self, List.mem_singleton.mp h ▸ List.Subset.refl _⟩
    | cons next others =>
      rw [linesOfPieces] at h
      · rcases List.mem_cons.mp h with rfl | h
        · refine ⟨piece, List.mem_cons_self, ?_⟩
          unfold dropReturn
          split
          · exact List.dropLast_subset piece
          · exact List.Subset.refl piece
        · obtain ⟨other, hother, hsubset⟩ := ih h
          exact ⟨other, List.mem_cons_of_mem piece hother, hsubset⟩
      · exact List.cons_ne_nil next others

/-- A line of a text holds only characters of the text. -/
theorem subset_of_mem_lines {s line : String} (h : line ∈ lines s) : line.toList ⊆ s.toList := by
  obtain ⟨cs, hcs, rfl⟩ := List.mem_map.mp h
  obtain ⟨piece, hpiece, hsubset⟩ := exists_subset_of_mem_linesOfPieces hcs
  rw [String.toList_ofList]
  exact List.Subset.trans hsubset (subset_of_mem_split hpiece)

end LintDebt.Text
