import LintDebt.Proofs.Report.Console

/-!
# Trimming texts put together

A text put together from two is trimmed where it ends: on the side of the first part, unless that shows
nothing, and on the side of the second likewise.

* `LintDebt.Text.exists_eq_append_trimStart`, `exists_eq_trimEnd_append`: only blanks are taken away.
* `LintDebt.Text.trimStart_append`, `trimEnd_append`: the part at the end is trimmed, if it shows something.
* `LintDebt.Text.trimStart_trimEnd`: it makes no difference at which end a text is trimmed first.
* `LintDebt.Text.StartsVisibly`, `LintDebt.Text.EndsVisibly`: ends of a text at which nothing is trimmed.
* `LintDebt.Text.IsPartOf`: a text stands in another.
* `LintDebt.Text.IsPartOf.trim`: what shows in a text is still there when the text is trimmed.
-/

namespace LintDebt.Text

/-! ## What is taken away -/

/-- A text shows nothing when its characters are blank. -/
theorem allBlank_iff {s : String} : allBlank s = true ↔ ∀ c ∈ s.toList, isBlank c = true := by
  rw [allBlank, List.all_eq_true]

/-- The blanks at the start of a text stand in front of what is left of it. -/
theorem exists_eq_append_trimStart (s : String) :
    ∃ blanks : String, allBlank blanks = true ∧ s = blanks ++ trimStart s := by
  refine ⟨String.ofList (s.toList.takeWhile isBlank), ?_, ?_⟩
  · rw [allBlank, String.toList_ofList, List.all_takeWhile]
  · apply String.toList_injective
    simp [trimStart]

/-- The blanks at the end of a text stand behind what is left of it. -/
theorem exists_eq_trimEnd_append (s : String) :
    ∃ blanks : String, allBlank blanks = true ∧ s = trimEnd s ++ blanks := by
  refine ⟨String.ofList (s.toList.reverse.takeWhile isBlank).reverse, ?_, ?_⟩
  · rw [allBlank, String.toList_ofList, List.all_reverse, List.all_takeWhile]
  · apply String.toList_injective
    simp [trimEnd, ← List.reverse_append]

/-- Trimming takes away nothing that shows. -/
theorem allBlank_trimStart (s : String) : allBlank (trimStart s) = allBlank s := by
  rw [allBlank, trimStart, String.toList_ofList, all_dropWhile_isBlank]
  rfl

/-! ## Two parts -/

/-- A first part that shows nothing is taken away whole. -/
theorem trimStart_append_of_allBlank {s : String} (h : allBlank s = true) (t : String) :
    trimStart (s ++ t) = trimStart t := by
  unfold trimStart
  rw [String.toList_append, List.dropWhile_append_of_pos (allBlank_iff.mp h)]

/-- A first part that shows something is trimmed by itself. -/
theorem trimStart_append {s : String} (h : allBlank s = false) (t : String) :
    trimStart (s ++ t) = trimStart s ++ t := by
  have hleft : (s.toList.dropWhile isBlank).isEmpty = false := by
    rw [List.isEmpty_eq_false_iff]
    intro hnil
    have hall := all_dropWhile_isBlank s.toList
    rw [hnil, ← allBlank, h] at hall
    cases hall
  apply String.toList_injective
  simp [trimStart, List.dropWhile_append, hleft]

/-- A second part that shows nothing is taken away whole. -/
theorem trimEnd_append_of_allBlank {t : String} (h : allBlank t = true) (s : String) :
    trimEnd (s ++ t) = trimEnd s := by
  have hblank : ∀ c ∈ t.toList.reverse, isBlank c = true :=
    fun c hc => allBlank_iff.mp h c (List.mem_reverse.mp hc)
  unfold trimEnd
  rw [String.toList_append, List.reverse_append, List.dropWhile_append_of_pos hblank]

/-- A second part that shows something is trimmed by itself. -/
theorem trimEnd_append {t : String} (h : allBlank t = false) (s : String) :
    trimEnd (s ++ t) = s ++ trimEnd t := by
  have hleft : (t.toList.reverse.dropWhile isBlank).isEmpty = false := by
    rw [List.isEmpty_eq_false_iff]
    intro hnil
    have hall := all_dropWhile_isBlank t.toList.reverse
    rw [hnil, List.all_reverse, ← allBlank, h] at hall
    cases hall
  apply String.toList_injective
  simp [trimEnd, List.dropWhile_append, hleft]

/-- Nothing is left of a text that shows nothing. -/
theorem trimStart_of_allBlank {s : String} (h : allBlank s = true) : trimStart s = "" := by
  have hnone := trimStart_append_of_allBlank h ""
  rwa [String.append_empty] at hnone

/-- Nothing is left of a text that shows nothing. -/
theorem trimEnd_of_allBlank {s : String} (h : allBlank s = true) : trimEnd s = "" := by
  have hnone := trimEnd_append_of_allBlank h ""
  rwa [String.empty_append] at hnone

/-! ## Both ends -/

/-- Trimming at the start what was trimmed there changes nothing. -/
theorem trimStart_trimStart (s : String) : trimStart (trimStart s) = trimStart s := by
  obtain ⟨blanks, hblank, hs⟩ := exists_eq_append_trimStart s
  have hagain := trimStart_append_of_allBlank hblank (trimStart s)
  rw [← hs] at hagain
  exact hagain.symm

/-- Trimming at the end what was trimmed there changes nothing. -/
theorem trimEnd_trimEnd (s : String) : trimEnd (trimEnd s) = trimEnd s := by
  obtain ⟨blanks, hblank, hs⟩ := exists_eq_trimEnd_append s
  have hagain := trimEnd_append_of_allBlank hblank (trimEnd s)
  rw [← hs] at hagain
  exact hagain.symm

/-- A text that starts with what shows still does when it is trimmed at its end. -/
theorem trimStart_trimEnd_of_trimStart {s : String} (hs : trimStart s = s) :
    trimStart (trimEnd s) = trimEnd s := by
  cases h : allBlank s with
  | true =>
    rw [trimEnd_of_allBlank h, trimStart_of_allBlank allBlank_empty]
  | false =>
    obtain ⟨blanks, -, hback⟩ := exists_eq_trimEnd_append s
    have hshows : allBlank (trimEnd s) = false := (allBlank_trimEnd s).trans h
    have hsame : trimStart (trimEnd s) ++ blanks = trimEnd s ++ blanks := by
      rw [← trimStart_append hshows, ← hback, hs]
    exact (String.append_left_inj blanks).mp hsame

/-- It makes no difference at which end a text is trimmed first. -/
theorem trimStart_trimEnd (s : String) : trimStart (trimEnd s) = trim s := by
  cases h : allBlank s with
  | true =>
    rw [trim, trimStart_of_allBlank h, trimEnd_of_allBlank h, trimStart_of_allBlank allBlank_empty,
      trimEnd_of_allBlank allBlank_empty]
  | false =>
    obtain ⟨blanks, hblank, hfront⟩ := exists_eq_append_trimStart s
    have hshows : allBlank (trimStart s) = false := (allBlank_trimStart s).trans h
    calc trimStart (trimEnd s) = trimStart (blanks ++ trimEnd (trimStart s)) := by
          rw [← trimEnd_append hshows, ← hfront]
      _ = trimStart (trimEnd (trimStart s)) := trimStart_append_of_allBlank hblank _
      _ = trim s := trimStart_trimEnd_of_trimStart (trimStart_trimStart s)

/-- Nothing is left of a text exactly when it shows nothing. -/
theorem trim_eq_empty_iff (s : String) : trim s = "" ↔ allBlank s = true := by
  constructor
  · intro h
    rw [← allBlank_trim, h]
    exact allBlank_empty
  · intro h
    rw [trim, trimStart_of_allBlank h, trimEnd_of_allBlank allBlank_empty]

/-! ## Ends that show -/

/-- A text that starts with a character that shows. -/
def StartsVisibly (s : String) : Prop :=
  ∃ c rest, s.toList = c :: rest ∧ isBlank c = false

/-- A text that ends with a character that shows: it is neither empty, nor is there a blank at its end. -/
def EndsVisibly (s : String) : Prop :=
  ∃ front c, s.toList = front ++ [c] ∧ isBlank c = false

/-- Whether a text starts with a character that shows is seen from its first character. -/
theorem startsVisibly_iff {s : String} : StartsVisibly s ↔ (s.toList.head?.any fun c => !isBlank c) = true := by
  unfold StartsVisibly
  simp only [Option.any_eq_true, List.head?_eq_some_iff, Bool.not_eq_true']
  constructor
  · rintro ⟨c, rest, hs, hc⟩
    exact ⟨c, ⟨rest, hs⟩, hc⟩
  · rintro ⟨c, ⟨rest, hs⟩, hc⟩
    exact ⟨c, rest, hs, hc⟩

instance (s : String) : Decidable (StartsVisibly s) :=
  decidable_of_iff _ startsVisibly_iff.symm

/-- Whether a text ends with a character that shows is seen from its last character. -/
theorem endsVisibly_iff {s : String} : EndsVisibly s ↔ (s.toList.getLast?.any fun c => !isBlank c) = true := by
  unfold EndsVisibly
  simp only [Option.any_eq_true, List.getLast?_eq_some_iff, Bool.not_eq_true']
  constructor
  · rintro ⟨front, c, hs, hc⟩
    exact ⟨c, ⟨front, hs⟩, hc⟩
  · rintro ⟨c, ⟨front, hs⟩, hc⟩
    exact ⟨front, c, hs, hc⟩

instance (s : String) : Decidable (EndsVisibly s) :=
  decidable_of_iff _ endsVisibly_iff.symm

/-- Nothing is trimmed at a start that shows. -/
theorem StartsVisibly.trimStart_eq {s : String} (h : StartsVisibly s) : trimStart s = s := by
  obtain ⟨c, rest, hs, hc⟩ := h
  apply String.toList_injective
  simp [trimStart, hs, hc]

/-- Nothing is trimmed at an end that shows. -/
theorem EndsVisibly.trimEnd_eq {s : String} (h : EndsVisibly s) : trimEnd s = s := by
  obtain ⟨front, c, hs, hc⟩ := h
  apply String.toList_injective
  simp [trimEnd, hs, hc]

/-- A text that starts with what shows is not blank. -/
theorem StartsVisibly.allBlank_eq {s : String} (h : StartsVisibly s) : allBlank s = false := by
  obtain ⟨c, rest, hs, hc⟩ := h
  simp [allBlank, hs, hc]

/-- A text that ends with what shows is not blank. -/
theorem EndsVisibly.allBlank_eq {s : String} (h : EndsVisibly s) : allBlank s = false := by
  obtain ⟨front, c, hs, hc⟩ := h
  simp [allBlank, hs, hc]

/-- A text starts with what its first part starts with. -/
theorem StartsVisibly.append {s : String} (h : StartsVisibly s) (t : String) : StartsVisibly (s ++ t) := by
  obtain ⟨c, rest, hs, hc⟩ := h
  exact ⟨c, rest ++ t.toList, by rw [String.toList_append, hs, List.cons_append], hc⟩

/-! ## Parts -/

/-- A text stands in another, with anything in front of it and behind it. -/
def IsPartOf (s t : String) : Prop :=
  ∃ front back : String, t = front ++ s ++ back

/-- A text is a part of itself. -/
theorem IsPartOf.refl (s : String) : IsPartOf s s :=
  ⟨"", "", by rw [String.empty_append, String.append_empty]⟩

/-- A part of a part is a part. -/
theorem IsPartOf.trans {s t u : String} (hst : IsPartOf s t) (htu : IsPartOf t u) : IsPartOf s u := by
  obtain ⟨front, back, rfl⟩ := hst
  obtain ⟨front', back', rfl⟩ := htu
  exact ⟨front' ++ front, back ++ back', by simp only [String.append_assoc]⟩

/-- The empty text is a part of any. -/
theorem isPartOf_empty (t : String) : IsPartOf "" t :=
  ⟨"", t, by rw [String.empty_append, String.empty_append]⟩

/-- The first of two texts is a part of both together. -/
theorem isPartOf_append_left (s t : String) : IsPartOf s (s ++ t) :=
  ⟨"", t, by rw [String.empty_append]⟩

/-- The second of two texts is a part of both together. -/
theorem isPartOf_append_right (s t : String) : IsPartOf t (s ++ t) :=
  ⟨s, "", by rw [String.append_empty]⟩

/-- A text is a part of those that it is put together with. -/
theorem isPartOf_join {piece : String} {pieces : List String} (h : piece ∈ pieces) :
    IsPartOf piece (String.join pieces) := by
  obtain ⟨before, behind, rfl⟩ := List.append_of_mem h
  refine ⟨String.join before, String.join behind, ?_⟩
  rw [String.join_append, String.join_cons, String.append_assoc]

/-- What shows in a text is still there when both are trimmed at the start. -/
theorem exists_trimStart_append (front s : String) :
    ∃ front' : String, trimStart (front ++ s) = front' ++ trimStart s := by
  cases h : allBlank front with
  | true => exact ⟨"", by rw [trimStart_append_of_allBlank h, String.empty_append]⟩
  | false =>
    obtain ⟨blanks, -, hs⟩ := exists_eq_append_trimStart s
    refine ⟨trimStart front ++ blanks, ?_⟩
    rw [trimStart_append h, String.append_assoc, ← hs]

/-- What shows in a text is still there when both are trimmed at the end. -/
theorem exists_trimEnd_append (s back : String) :
    ∃ back' : String, trimEnd (s ++ back) = trimEnd s ++ back' := by
  cases h : allBlank back with
  | true => exact ⟨"", by rw [trimEnd_append_of_allBlank h, String.append_empty]⟩
  | false =>
    obtain ⟨blanks, -, hs⟩ := exists_eq_trimEnd_append s
    refine ⟨blanks ++ trimEnd back, ?_⟩
    rw [trimEnd_append h, ← String.append_assoc, ← hs]

/-- What shows in a text is still there when the text is trimmed. -/
theorem IsPartOf.trim {s t : String} (h : IsPartOf s t) : IsPartOf (trim s) (trim t) := by
  obtain ⟨front, back, rfl⟩ := h
  cases hblank : allBlank s with
  | true =>
    rw [(trim_eq_empty_iff s).mpr hblank]
    exact isPartOf_empty _
  | false =>
    obtain ⟨front', hfront⟩ := exists_trimStart_append front (s ++ back)
    obtain ⟨back', hback⟩ := exists_trimEnd_append (front' ++ trimStart s) back
    have hshows : allBlank (trimStart s) = false := (allBlank_trimStart s).trans hblank
    refine ⟨front', back', ?_⟩
    calc Text.trim (front ++ s ++ back) = trimEnd (front' ++ trimStart s ++ back) := by
          rw [Text.trim, String.append_assoc, hfront, trimStart_append hblank, ← String.append_assoc]
      _ = front' ++ Text.trim s ++ back' := by rw [hback, trimEnd_append hshows, Text.trim]

end LintDebt.Text
