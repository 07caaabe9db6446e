import LintDebt.Proofs.Text.Digits
import LintDebt.Proofs.Text.Trim

/-!
# Painted texts

A painted text is a text with style sequences in between.  Deleting them gives the text back, as long as
it has no escape character of its own.  Trimming is another matter: a sequence shows nothing on a terminal,
but it is no blank, so it keeps blanks in the text that are on its inner side.

* `LintDebt.Style.strip`: a text without its style sequences.
* `LintDebt.Style.Painted`, `LintDebt.Style.Painted.stripped_eq`: a painted text, and that it is stripped to the
  text.
* `LintDebt.Style.PaintedAtStart`, `PaintedAtEnd`, `PaintedAtEnds`: painted texts that stay so when they are
  trimmed.
* `LintDebt.Style.PaintedAtEnds.trim`: what may be trimmed at either end may be trimmed at both.
* `LintDebt.Style.painted_paint`: a text in a style is painted.
* `LintDebt.Style.Paintable`: texts that may be painted at the end of a line.
-/

namespace LintDebt.Style

open LintDebt.Text (isBlank allBlank trimStart trimEnd)

/-! ## Style sequences -/

/-- The character that style sequences start with. -/
def escape : Char := '\x1b'

/-- What follows a style sequence at the start of a text, if there is one: the escape character, a bracket,
digits, and the letter m. -/
def afterSequence? : List Char → Option (List Char)
  | c :: '[' :: rest =>
    if c = escape then
      match Text.takeDigits rest with
      | (_ :: _, 'm' :: after) => some after
      | _ => none
    else none
  | _ => none

/-- Something is taken away with a style sequence. -/
theorem length_afterSequence? {s after : List Char} (h : afterSequence? s = some after) :
    after.length < s.length := by
  unfold afterSequence? at h
  split at h
  · next c rest =>
    split at h
    · split at h
      · next d digits after' hdigits =>
        have hrest := congrArg List.length (Text.takeDigits_append rest)
        rw [hdigits] at hrest
        cases h
        simp only [List.length_append, List.length_cons] at hrest ⊢
        omega
      · cases h
    · cases h
  · cases h

/-- The characters of a text that belong to no style sequence. -/
def stripped : List Char → List Char
  | [] => []
  | c :: rest =>
    match _h : afterSequence? (c :: rest) with
    | some after => stripped after
    | none => c :: stripped rest
termination_by s => s.length
decreasing_by
  · exact length_afterSequence? _h
  · exact Nat.lt_succ_self _

/-- A text without its style sequences. -/
def strip (s : String) : String :=
  String.ofList (stripped s.toList)

/-- A text of which no character starts a style sequence. -/
def Inert (s : String) : Prop :=
  escape ∉ s.toList

instance (s : String) : Decidable (Inert s) :=
  inferInstanceAs (Decidable (escape ∉ s.toList))

/-- No sequence starts in texts after one another when none starts in either. -/
theorem Inert.append {s t : String} (hs : Inert s) (ht : Inert t) : Inert (s ++ t) := by
  unfold Inert
  rw [String.toList_append, List.mem_append, not_or]
  exact ⟨hs, ht⟩

/-- No sequence starts in what is put together from texts in which none starts. -/
theorem inert_join {pieces : List String} (h : ∀ piece ∈ pieces, Inert piece) : Inert (String.join pieces) := by
  unfold Inert
  rw [String.toList_join, List.mem_flatMap]
  rintro ⟨piece, hpiece, hmem⟩
  exact h piece hpiece hmem

/-- A character that does not start a style sequence stays. -/
theorem stripped_cons {c : Char} (hc : c ≠ escape) (s : List Char) :
    stripped (c :: s) = c :: stripped s := by
  have hnone : afterSequence? (c :: s) = none := by
    unfold afterSequence?
    split
    · next heq =>
      rw [(List.cons.inj heq).1] at hc
      exact if_neg hc
    · rfl
  rw [stripped]
  split
  · next h =>
    rw [hnone] at h
    cases h
  · rfl

/-- What is taken away at the start is not looked at again. -/
theorem stripped_of_afterSequence? {s after : List Char} (h : afterSequence? s = some after) :
    stripped s = stripped after := by
  cases s with
  | nil => cases h
  | cons c rest =>
    rw [stripped]
    split
    · next h' =>
      rw [h'] at h
      cases h
      rfl
    · next h' =>
      rw [h'] at h
      cases h

/-- The characters of a style sequence. -/
theorem toList_sequence (code : Nat) :
    (sequence code).toList = escape :: '[' :: (Text.decimalDigits code ++ ['m']) := by
  have hdigits : (toString code).toList = Text.decimalDigits code := Nat.toList_repr
  have hstart : ("\x1b[" : String).toList = [escape, '['] := by decide +kernel
  have hend : ("m" : String).toList = ['m'] := by decide +kernel
  rw [sequence, String.toList_append, String.toList_append, hdigits, hstart, hend]
  rfl

/-- A style sequence goes. -/
theorem stripped_sequence (code : Nat) (s : List Char) :
    stripped ((sequence code).toList ++ s) = stripped s := by
  obtain ⟨d, digits, hdigits, -⟩ := Text.exists_digit_eq_decimalDigits code
  have htake : Text.takeDigits (Text.decimalDigits code ++ 'm' :: s) = (d :: digits, 'm' :: s) := by
    rw [Text.takeDigits_decimalDigits code (Text.startsNoDigit_cons.mpr (by decide)), hdigits]
  apply stripped_of_afterSequence?
  rw [toList_sequence, List.cons_append, List.cons_append, List.append_assoc, List.singleton_append]
  simp only [afterSequence?, htake, if_true]

/-! ## Painted texts -/

/-- A list of characters with style sequences in between of another, which has no escape characters. -/
inductive Painted : List Char → List Char → Prop
  | nil : Painted [] []
  | char {c : Char} {s t : List Char} (hc : c ≠ escape) (h : Painted s t) : Painted (c :: s) (c :: t)
  | sequence (code : Nat) {s t : List Char} (h : Painted s t) : Painted ((Style.sequence code).toList ++ s) t

namespace Painted

variable {s t s' t' : List Char}

/-- What was painted comes back when the style sequences are deleted. -/
theorem stripped_eq (h : Painted s t) : stripped s = t := by
  induction h with
  | nil => rw [stripped]
  | char hc _ ih => rw [stripped_cons hc, ih]
  | sequence code _ ih => rw [stripped_sequence, ih]

/-- Painted texts after one another are painted. -/
theorem append (h : Painted s t) (h' : Painted s' t') : Painted (s ++ s') (t ++ t') := by
  induction h with
  | nil => exact h'
  | char hc _ ih => exact char hc ih
  | sequence code _ ih =>
    rw [List.append_assoc]
    exact sequence code ih

/-- A text without escape characters may stay as it is. -/
theorem refl (hs : escape ∉ s) : Painted s s := by
  induction s with
  | nil => exact nil
  | cons c s ih =>
    obtain ⟨hc, hrest⟩ := not_or.mp (mt List.mem_cons.mpr hs)
    exact char (Ne.symm hc) (ih hrest)

/-- There are no escape characters in what was painted. -/
theorem escape_not_mem (h : Painted s t) : escape ∉ t := by
  induction h with
  | nil => exact List.not_mem_nil
  | char hc _ ih => exact List.not_mem_cons_of_ne_of_not_mem (Ne.symm hc) ih
  | sequence code _ ih => exact ih

/-- What is painted behind the same text is painted by itself. -/
theorem of_append {front : List Char} (hfront : escape ∉ front) (h : Painted (front ++ s) (front ++ t)) :
    Painted s t := by
  induction front with
  | nil => exact h
  | cons c front ih =>
    obtain ⟨hc, hrest⟩ := not_or.mp (mt List.mem_cons.mpr hfront)
    rw [List.cons_append, List.cons_append] at h
    generalize hp : c :: (front ++ s) = painted at h
    cases h with
    | char _ h =>
      cases hp
      exact ih hrest h
    | sequence code h =>
      rw [toList_sequence] at hp
      exact absurd (List.cons.inj hp).1.symm hc

end Painted

/-! ## Trimming -/

/-- A painted text that stays so when it is trimmed at the start. -/
structure PaintedAtStart (s t : String) : Prop where
  painted : Painted s.toList t.toList
  trimmed : Painted (trimStart s).toList (trimStart t).toList
  allBlank_eq : allBlank s = allBlank t

/-- A painted text that stays so when it is trimmed at the end. -/
structure PaintedAtEnd (s t : String) : Prop where
  painted : Painted s.toList t.toList
  trimmed : Painted (trimEnd s).toList (trimEnd t).toList
  allBlank_eq : allBlank s = allBlank t

variable {s t s' t' : String}

/-- Texts after one another are painted when both are. -/
theorem painted_append (h : Painted s.toList t.toList) (h' : Painted s'.toList t'.toList) :
    Painted (s ++ s').toList (t ++ t').toList := by
  rw [String.toList_append, String.toList_append]
  exact h.append h'

/-- Blanks do not start style sequences. -/
theorem inert_of_allBlank (h : allBlank s = true) : Inert s := by
  intro hmem
  have hblank := Text.allBlank_iff.mp h escape hmem
  revert hblank
  decide

/-- Of texts that start with what shows nothing is trimmed there. -/
theorem Painted.atStart (h : Painted s.toList t.toList) (hs : Text.StartsVisibly s) (ht : Text.StartsVisibly t) :
    PaintedAtStart s t where
  painted := h
  trimmed := by rwa [hs.trimStart_eq, ht.trimStart_eq]
  allBlank_eq := by rw [hs.allBlank_eq, ht.allBlank_eq]

/-- Of texts that end with what shows nothing is trimmed there. -/
theorem Painted.atEnd (h : Painted s.toList t.toList) (hs : Text.EndsVisibly s) (ht : Text.EndsVisibly t) :
    PaintedAtEnd s t where
  painted := h
  trimmed := by rwa [hs.trimEnd_eq, ht.trimEnd_eq]
  allBlank_eq := by rw [hs.allBlank_eq, ht.allBlank_eq]

/-- No sequence starts in what is left of a text in which none starts. -/
theorem Inert.trimStart (h : Inert s) : Inert (trimStart s) := by
  obtain ⟨blanks, -, hs⟩ := Text.exists_eq_append_trimStart s
  intro hmem
  apply h
  rw [hs, String.toList_append]
  exact List.mem_append_right _ hmem

/-- No sequence starts in what is left of a text in which none starts. -/
theorem Inert.trimEnd (h : Inert s) : Inert (trimEnd s) := by
  obtain ⟨blanks, -, hs⟩ := Text.exists_eq_trimEnd_append s
  intro hmem
  apply h
  rw [hs, String.toList_append]
  exact List.mem_append_left _ hmem

/-- Behind what shows it does not matter how a text starts. -/
theorem PaintedAtStart.append_painted (h : PaintedAtStart s t) (hshows : allBlank t = false)
    (h' : Painted s'.toList t'.toList) : PaintedAtStart (s ++ s') (t ++ t') where
  painted := painted_append h.painted h'
  trimmed := by
    rw [Text.trimStart_append (h.allBlank_eq.trans hshows), Text.trimStart_append hshows]
    exact painted_append h.trimmed h'
  allBlank_eq := by
    rw [Text.allBlank_append, Text.allBlank_append, h.allBlank_eq, hshows, Bool.false_and, Bool.false_and]

/-- In front of what shows it does not matter how a text ends. -/
theorem PaintedAtEnd.painted_append (h' : PaintedAtEnd s' t') (hshows : allBlank t' = false)
    (h : Painted s.toList t.toList) : PaintedAtEnd (s ++ s') (t ++ t') where
  painted := Style.painted_append h h'.painted
  trimmed := by
    rw [Text.trimEnd_append (h'.allBlank_eq.trans hshows), Text.trimEnd_append hshows]
    exact Style.painted_append h h'.trimmed
  allBlank_eq := by
    rw [Text.allBlank_append, Text.allBlank_append, h'.allBlank_eq, hshows, Bool.and_false, Bool.and_false]

/-- Texts after one another may be trimmed at the start when both may. -/
theorem PaintedAtStart.append (h : PaintedAtStart s t) (h' : PaintedAtStart s' t') :
    PaintedAtStart (s ++ s') (t ++ t') := by
  cases hblank : allBlank t with
  | false => exact h.append_painted hblank h'.painted
  | true =>
    refine ⟨painted_append h.painted h'.painted, ?_, ?_⟩
    · rw [Text.trimStart_append_of_allBlank (h.allBlank_eq.trans hblank),
        Text.trimStart_append_of_allBlank hblank]
      exact h'.trimmed
    · rw [Text.allBlank_append, Text.allBlank_append, h.allBlank_eq, h'.allBlank_eq]

/-- Texts after one another may be trimmed at the end when both may. -/
theorem PaintedAtEnd.append (h : PaintedAtEnd s t) (h' : PaintedAtEnd s' t') :
    PaintedAtEnd (s ++ s') (t ++ t') := by
  cases hblank : allBlank t' with
  | false => exact h'.painted_append hblank h.painted
  | true =>
    refine ⟨Style.painted_append h.painted h'.painted, ?_, ?_⟩
    · rw [Text.trimEnd_append_of_allBlank (h'.allBlank_eq.trans hblank),
        Text.trimEnd_append_of_allBlank hblank]
      exact h.trimmed
    · rw [Text.allBlank_append, Text.allBlank_append, h.allBlank_eq, h'.allBlank_eq]

/-- A painted text that stays so when it is trimmed at either end. -/
structure PaintedAtEnds (s t : String) : Prop where
  atStart : PaintedAtStart s t
  atEnd : PaintedAtEnd s t

/-- A text that is left as it is may be trimmed. -/
theorem Inert.atEnds (h : Inert s) : PaintedAtEnds s s :=
  ⟨⟨.refl h, .refl h.trimStart, rfl⟩, ⟨.refl h, .refl h.trimEnd, rfl⟩⟩

/-- Texts after one another may be trimmed when both may. -/
theorem PaintedAtEnds.append (h : PaintedAtEnds s t) (h' : PaintedAtEnds s' t') :
    PaintedAtEnds (s ++ s') (t ++ t') :=
  ⟨h.atStart.append h'.atStart, h.atEnd.append h'.atEnd⟩

/-- Texts put together may be trimmed when each of them may. -/
theorem paintedAtEnds_join {α : Type} {f g : α → String} {xs : List α}
    (h : ∀ x ∈ xs, PaintedAtEnds (f x) (g x)) :
    PaintedAtEnds (String.join (xs.map f)) (String.join (xs.map g)) := by
  induction xs with
  | nil =>
    have hnone : Inert "" := by decide
    exact hnone.atEnds
  | cons x xs ih =>
    rw [List.map_cons, List.map_cons, String.join_cons, String.join_cons]
    exact (h x List.mem_cons_self).append (ih fun y hy => h y (List.mem_cons_of_mem x hy))

/-- A painted text that may be trimmed at either end may be trimmed at both. -/
theorem PaintedAtEnds.trim (h : PaintedAtEnds s t) : Painted (Text.trim s).toList (Text.trim t).toList := by
  obtain ⟨hstart, hend⟩ := h
  cases hblank : allBlank t with
  | true =>
    rw [(Text.trim_eq_empty_iff s).mpr (hstart.allBlank_eq.trans hblank), (Text.trim_eq_empty_iff t).mpr hblank]
    exact .nil
  | false =>
    obtain ⟨front, hfront, hs⟩ := Text.exists_eq_append_trimStart s
    obtain ⟨front', -, ht⟩ := Text.exists_eq_append_trimStart t
    -- deleting the sequences shows that the same blanks stand in front of both
    have hsame : front = front' := by
      have hfronts := (painted_append (.refl (inert_of_allBlank hfront)) hstart.trimmed).stripped_eq
      rw [← hs, hstart.painted.stripped_eq, String.toList_inj] at hfronts
      conv at hfronts => lhs; rw [ht]
      exact ((String.append_left_inj _).mp hfronts).symm
    subst hsame
    have hstrim : trimEnd s = front ++ Text.trim s := by
      rw [Text.trim, ← Text.trimEnd_append ((Text.allBlank_trimStart s).trans (hstart.allBlank_eq.trans hblank)), ← hs]
    have httrim : trimEnd t = front ++ Text.trim t := by
      rw [Text.trim, ← Text.trimEnd_append ((Text.allBlank_trimStart t).trans hblank), ← ht]
    have htrimmed := hend.trimmed
    rw [hstrim, httrim, String.toList_append, String.toList_append] at htrimmed
    exact htrimmed.of_append (inert_of_allBlank hfront)

/-- What was trimmed at the end may be trimmed again. -/
theorem PaintedAtEnds.trimEnd (h : PaintedAtEnds s t) : PaintedAtEnds (trimEnd s) (trimEnd t) := by
  have hblank : allBlank (Text.trimEnd s) = allBlank (Text.trimEnd t) := by
    rw [Text.allBlank_trimEnd, Text.allBlank_trimEnd, h.atStart.allBlank_eq]
  refine ⟨⟨h.atEnd.trimmed, ?_, hblank⟩, ⟨h.atEnd.trimmed, ?_, hblank⟩⟩
  · rw [Text.trimStart_trimEnd, Text.trimStart_trimEnd]
    exact h.trim
  · rw [Text.trimEnd_trimEnd, Text.trimEnd_trimEnd]
    exact h.atEnd.trimmed

/-! ## Painting -/

/-- The characters of a text in a style. -/
theorem toList_paint (style : Style) (hne : s ≠ "") :
    (style.paint true s).toList =
      (sequence style.onCode).toList ++ (s.toList ++ (sequence style.offCode).toList) := by
  have hnonempty : s.isEmpty = false := Bool.eq_false_iff.mpr (mt String.isEmpty_iff.mp hne)
  rw [paint, hnonempty, if_pos (by decide), String.toList_append, String.toList_append, List.append_assoc]

/-- A painted text in a style is painted. -/
theorem painted_paint (style : Style) (h : Painted s.toList t.toList) :
    Painted (style.paint true s).toList t.toList := by
  by_cases hne : s = ""
  · rwa [hne, paint_empty, ← hne]
  · have hoff : Painted (sequence style.offCode).toList [] := by
      simpa using Painted.sequence style.offCode .nil
    rw [toList_paint style hne, ← List.append_nil t.toList]
    exact .sequence _ (h.append hoff)

/-- A text in a style starts with a sequence. -/
theorem startsVisibly_paint (style : Style) (hne : s ≠ "") : Text.StartsVisibly (style.paint true s) := by
  refine ⟨escape, '[' :: (Text.decimalDigits style.onCode ++ ['m']) ++
    (s.toList ++ (sequence style.offCode).toList), ?_, by decide⟩
  rw [toList_paint style hne, toList_sequence style.onCode]
  rfl

/-- A text in a style ends with a sequence. -/
theorem endsVisibly_paint (style : Style) (hne : s ≠ "") : Text.EndsVisibly (style.paint true s) := by
  refine ⟨(sequence style.onCode).toList ++ (s.toList ++
    (escape :: '[' :: Text.decimalDigits style.offCode)), 'm', ?_, by decide⟩
  rw [toList_paint style hne, toList_sequence style.offCode]
  simp

/-- A text that starts with what shows may be trimmed there in a style. -/
theorem paintedAtStart_paint (style : Style) (hs : Inert s) (hstarts : Text.StartsVisibly s) :
    PaintedAtStart (style.paint true s) s := by
  have hne : s ≠ "" := by
    rintro rfl
    cases hstarts.allBlank_eq
  exact (painted_paint style (.refl hs)).atStart (startsVisibly_paint style hne) hstarts

/-- A painted text that ends with what shows may be trimmed there in a style. -/
theorem Painted.atEnd_paint (style : Style) (h : Painted s.toList t.toList) (ht : Text.EndsVisibly t) :
    PaintedAtEnd (style.paint true s) t := by
  have hne : s ≠ "" := by
    rintro rfl
    obtain ⟨front, c, hc, -⟩ := ht
    have hnone := h.stripped_eq
    rw [String.toList_empty, stripped, hc] at hnone
    simp at hnone
  exact (painted_paint style h).atEnd (endsVisibly_paint style hne) ht

/-- A text that may stand in a style at the end of a line: it has no escape characters, is not empty, and does
not end in a blank. -/
structure Paintable (s : String) : Prop where
  inert : Inert s
  ends : Text.EndsVisibly s

instance (s : String) : Decidable (Paintable s) :=
  decidable_of_iff (Inert s ∧ Text.EndsVisibly s) ⟨fun h => ⟨h.1, h.2⟩, fun h => ⟨h.inert, h.ends⟩⟩

/-- Behind what shows a text may be painted, or nothing. -/
theorem PaintedAtEnds.append_paint (h : PaintedAtEnds s t) (hshows : allBlank t = false) (style : Style)
    {u : String} (hu : u = "" ∨ Paintable u) : PaintedAtEnds (s ++ style.paint true u) (t ++ u) := by
  rcases hu with rfl | ⟨hinert, hends⟩
  · rwa [paint_empty, String.append_empty, String.append_empty]
  · have hend : PaintedAtEnd (style.paint true u) u := Painted.atEnd_paint style (.refl hinert) hends
    exact ⟨h.atStart.append_painted hshows hend.painted,
      hend.painted_append hends.allBlank_eq h.atStart.painted⟩

/-- A label may be painted in front of a text that ends with what shows: trimming never reaches it. -/
theorem paintedAtEnds_labelled (style : Style) {label text : String} (hlabel : Inert label)
    (hstarts : Text.StartsVisibly label) (htext : Paintable text) (h : PaintedAtEnd s t) :
    PaintedAtEnds (style.paint true label ++ text ++ s) (label ++ text ++ t) := by
  rw [String.append_assoc, String.append_assoc]
  have hlabelled := paintedAtStart_paint style hlabel hstarts
  have hbehind := htext.inert.atEnds.atEnd.append h
  have hshown : allBlank (text ++ t) = false := by
    rw [Text.allBlank_append, htext.ends.allBlank_eq, Bool.false_and]
  exact ⟨hlabelled.append_painted hstarts.allBlank_eq hbehind.painted,
    hbehind.painted_append hshown hlabelled.painted⟩

end LintDebt.Style
