import LintDebt.Proofs.Text.Lines
import LintDebt.Proofs.Text.Width
import LintDebt.Proofs.Text.Wrap
import LintDebt.Report.Table
import Mathlib.Algebra.Ring.Nat
import Mathlib.Data.List.Infix

/-!
# The widths of chunks

Whether a word is cut is decided by the width of the whole word, and where it is cut by the widths of its
characters, each measured alone.  A chunk of whole words is never too wide.  A piece of a word may be, when it
holds characters that are wider together than alone; apart from these only a single character is, which takes
more columns than there are.  This holds for every ruler that adds up at spaces.

* `LintDebt.Text.Ruler.of_mem_fill`: what holds of the chunks of words.
* `LintDebt.Text.Ruler.total_le_of_mem_cut`: pieces of a word are not too wide when measured by the character.
* `LintDebt.Text.Ruler.AddsAtSpaces`: a ruler for which the columns on both sides of a space add up.
* `LintDebt.Text.Ruler.wrapped_chunk_fits`: for such a ruler, which chunks of a text may be too wide.
* `LintDebt.Text.Ruler.wrapped_chunk_exceeds`: a chunk that is too wide.
-/

namespace LintDebt

namespace Text.Ruler

variable (r : Ruler) (max : Nat)

/-! ## Words that are cut -/

/-- The columns of the characters of a text, each measured alone. -/
def total (s : List Char) : Nat :=
  (s.map r.charWidth).sum

/-- The characters that still fit do so when each is measured alone. -/
theorem total_fit_le {used : Nat} (h : used ≤ max) (s : List Char) :
    used + r.total (r.fit max used s).1 ≤ max := by
  induction s generalizing used with
  | nil => exact h
  | cons c rest ih =>
    unfold fit
    split
    · exact h
    · next hfits =>
      have hrest := ih (Nat.le_of_not_lt hfits)
      unfold total at hrest ⊢
      rw [List.map_cons, List.sum_cons]
      omega

/-- Where there is no room left nothing fits. -/
theorem fit_of_lt {used : Nat} (h : max < used) (s : List Char) : (r.fit max used s).1 = [] := by
  cases s with
  | nil => rfl
  | cons c rest => rw [fit, if_pos (Nat.lt_add_right _ h)]

/-- A piece that is cut off a word fits when each of its characters is measured alone, unless it is a single
character that does not. -/
theorem total_le_of_mem_cut {word piece : List Char} (h : piece ∈ (r.cut max word).1) :
    r.total piece ≤ max ∨ ∃ c, piece = [c] ∧ max < r.charWidth c := by
  fun_induction cut r max word with
  | case1 => cases h
  | case2 => cases h
  | case3 c rest first pieces last hcut hwide ih =>
    rw [hcut] at ih
    rcases List.mem_cons.mp h with rfl | h
    · rcases Nat.lt_or_ge max (r.charWidth c) with hlt | hle
      · exact Or.inr ⟨c, congrArg (c :: ·) (r.fit_of_lt max hlt rest), hlt⟩
      · left
        exact r.total_fit_le max hle rest
    · exact ih h

/-- A word that fits is not cut. -/
theorem cut_of_le {r : Ruler} {max : Nat} {word : List Char} (h : r.width word ≤ max) :
    r.cut max word = ([], word) := by
  rw [cut.eq_def, if_pos h]

/-- Only a word that is too wide is cut. -/
theorem lt_width_of_mem_cut {r : Ruler} {max : Nat} {word piece : List Char} (h : piece ∈ (r.cut max word).1) :
    max < r.width word := by
  by_contra hfits
  rw [cut_of_le (Nat.le_of_not_lt hfits)] at h
  cases h

/-- A piece that is cut off a word holds something. -/
theorem ne_nil_of_mem_cut {word piece : List Char} (h : piece ∈ (r.cut max word).1) : piece ≠ [] := by
  fun_induction cut r max word with
  | case1 => cases h
  | case2 => cases h
  | case3 c rest first pieces last hcut hwide ih =>
    rw [hcut] at ih
    rcases List.mem_cons.mp h with rfl | h
    · exact List.cons_ne_nil c _
    · exact ih h

/-- A piece that is cut off a word is a part of it. -/
theorem isInfix_of_mem_cut {word piece : List Char} (h : piece ∈ (r.cut max word).1) : piece <:+: word := by
  rw [← r.flatten_cut max word]
  exact (List.infix_of_mem_flatten h).trans (List.prefix_append _ _).isInfix

/-- What is left of a word ends it. -/
theorem isSuffix_cut (word : List Char) : (r.cut max word).2 <:+ word :=
  ⟨(r.cut max word).1.flatten, r.flatten_cut max word⟩

/-- What is left of a word is not too wide. -/
theorem width_cut_le (hnil : r.width [] ≤ max) (word : List Char) : r.width (r.cut max word).2 ≤ max := by
  fun_induction cut r max word with
  | case1 word hfits => exact hfits
  | case2 => exact hnil
  | case3 c rest first pieces last hcut hwide ih =>
    rw [hcut] at ih
    exact ih

/-! ## Chunks -/

theorem mem_flush {current chunk : List Char} : chunk ∈ flush current ↔ chunk = current ∧ current ≠ [] := by
  unfold flush
  cases current <;> simp

/-- A chunk of words holds something, and it is a piece that was cut off one of them, or has what holds of the first
chunk as far as it goes, of what is left of each word, and of such texts with the next word at their side, if it
fits.  What holds may depend on the words that have been read, which are those in `front` to begin with. -/
theorem of_mem_fill {P : List (List Char) → List Char → Prop} {all front words : List (List Char)}
    {current chunk : List Char} (hall : front ++ words = all) (hcurrent : P front current)
    (hleft : ∀ front, ∀ word ∈ all, P (front ++ [word]) (r.cut max word).2)
    (hjoin : ∀ front, ∀ s ≠ [], P front s → ∀ word ∈ all, r.width s + 1 + r.width word ≤ max →
      P (front ++ [word]) (s ++ ' ' :: word))
    (h : chunk ∈ r.fill max current words) :
    chunk ≠ [] ∧ ((∃ read, read <+: all ∧ P read chunk) ∨ ∃ word ∈ all, chunk ∈ (r.cut max word).1) := by
  -- Each word that is read goes over to `front`, so that `all` stays the same.
  have hread : ∀ {front words : List (List Char)} {word : List Char}, front ++ word :: words = all →
      word ∈ all ∧ front ++ [word] ++ words = all :=
    fun hall => ⟨hall ▸ List.mem_append_right _ List.mem_cons_self, (List.append_cons ..).symm.trans hall⟩
  fun_induction fill r max current words generalizing front with
  | case1 current =>
    obtain ⟨rfl, hne⟩ := mem_flush.mp h
    exact ⟨hne, Or.inl ⟨front, ⟨[], hall⟩, hcurrent⟩⟩
  | case2 current word words left hcut hempty ih =>
    obtain ⟨hword, hrest⟩ := hread hall
    have hnext := hleft front word hword
    rw [hcut] at hnext
    exact ih hrest hnext h
  | case3 current word words left hcut hempty hroom ih =>
    obtain ⟨hword, hrest⟩ := hread hall
    have hsame := r.eq_of_cut_eq max hcut
    rw [hsame] at hroom ih h
    exact ih hrest (hjoin front current (by simpa using hempty) hcurrent word hword hroom) h
  | case4 current word words left hcut hempty hfull ih =>
    obtain ⟨hword, hrest⟩ := hread hall
    rcases List.mem_cons.mp h with rfl | h
    · exact ⟨by simpa using hempty, Or.inl ⟨front, ⟨word :: words, hall⟩, hcurrent⟩⟩
    · have hnext := hleft front word hword
      rw [hcut] at hnext
      exact ih hrest hnext h
  | case5 current word words pieces last hpieces hcut ih =>
    obtain ⟨hword, hrest⟩ := hread hall
    simp only [List.mem_append, or_assoc] at h
    rcases h with hmem | hmem | hmem
    · obtain ⟨rfl, hne⟩ := mem_flush.mp hmem
      exact ⟨hne, Or.inl ⟨front, ⟨word :: words, hall⟩, hcurrent⟩⟩
    · have hpiece : chunk ∈ (r.cut max word).1 := by rwa [hcut]
      exact ⟨r.ne_nil_of_mem_cut max hpiece, Or.inr ⟨word, hword, hpiece⟩⟩
    · have hnext := hleft front word hword
      rw [hcut] at hnext
      exact ih hrest hnext hmem

/-- A further chunk of a text does not start with a space. -/
theorem head?_ne_of_mem_tail_wrap {s chunk : List Char} (h : chunk ∈ (r.wrap max s).tail) :
    chunk.head? ≠ some ' ' := by
  have hpart : ∀ word ∈ words s, ∀ part, part <:+: word → part.head? ≠ some ' ' := by
    intro word hword part hpart hhead
    exact not_mem_of_mem_split (List.mem_of_mem_filter hword) (hpart.subset (List.mem_of_mem_head? hhead))
  unfold wrap at h
  split at h
  · cases h
  · rcases (r.of_mem_fill max (P := fun _ s => s.head? ≠ some ' ') (List.nil_append _) (by simp)
      (fun _ word hword => hpart word hword _ (r.isSuffix_cut max word).isInfix)
      (fun _ s hs hstart _ _ _ => by rwa [List.head?_append_of_ne_nil _ hs]) (List.mem_of_mem_tail h)).2 with
      ⟨_, _, hstart⟩ | ⟨word, hword, hpiece⟩
    · exact hstart
    · exact hpart word hword _ (r.isInfix_of_mem_cut max hpiece)

/-! ## Chunks that fit -/

/-- A ruler for which the empty text takes no columns, and for which what stands before a space and what stands
behind it take as many columns as alone, and the space one. -/
structure AddsAtSpaces (r : Ruler) : Prop where
  width_nil : r.width [] = 0
  width_append_space : ∀ s t, r.width (s ++ ' ' :: t) = r.width s + 1 + r.width t

variable {r max}

/-- A chunk of a text is not too wide, unless it is a piece that was cut off one of its words. -/
theorem AddsAtSpaces.width_le_of_mem_wrap (hr : r.AddsAtSpaces) (hmax : 1 < max) {s chunk : List Char}
    (h : chunk ∈ r.wrap max s) : r.width chunk ≤ max ∨ ∃ word ∈ words s, chunk ∈ (r.cut max word).1 := by
  have hnil : r.width [] ≤ max := hr.width_nil ▸ Nat.zero_le max
  unfold wrap at h
  split at h
  · next hfits =>
    rw [List.mem_singleton.mp h]
    exact Or.inl (hfits.resolve_right (Nat.not_le.mpr hmax))
  · rcases (r.of_mem_fill max (P := fun _ s => r.width s ≤ max) (List.nil_append _) hnil
      (fun _ word _ => r.width_cut_le max hnil word)
      (fun _ s _ _ word _ hroom => (hr.width_append_space s word).trans_le hroom) h).2 with ⟨_, _, hfits⟩ | hpiece
    · exact Or.inl hfits
    · exact Or.inr hpiece

/-- A chunk is no wider than the room there is, unless it was cut off a word that is.  Such a piece may be too wide
as a whole although its characters, each measured alone, fit; or it is a single character that does not fit. -/
theorem wrapped_chunk_fits (hr : r.AddsAtSpaces) (hmax : 2 ≤ max) {s chunk : List Char}
    (h : chunk ∈ r.wrap max s) :
    r.width chunk ≤ max ∨
      (∃ word ∈ words s, max < r.width word ∧ chunk <:+: word) ∧
        (r.total chunk ≤ max ∨ ∃ c, chunk = [c] ∧ max < r.charWidth c) := by
  rcases hr.width_le_of_mem_wrap hmax h with hfits | ⟨word, hword, hpiece⟩
  · exact Or.inl hfits
  · exact Or.inr ⟨⟨word, hword, lt_width_of_mem_cut hpiece, r.isInfix_of_mem_cut max hpiece⟩,
      r.total_le_of_mem_cut max hpiece⟩

/-- The columns of a text of ASCII characters and hearts: the selector of emoji presentation takes none, but a heart
in front of it takes two. -/
def exampleWidth : List Char → Nat
  | [] => 0
  | '❤' :: '\ufe0f' :: rest => 2 + exampleWidth rest
  | c :: rest => (if c = '\ufe0f' then 0 else 1) + exampleWidth rest

/-- A ruler for ASCII characters and hearts. -/
def exampleRuler : Ruler where
  width := exampleWidth
  charWidth c := if c = '\ufe0f' then 0 else 1

/-- Columns of ASCII characters and hearts add up at spaces. -/
theorem addsAtSpaces_exampleRuler : exampleRuler.AddsAtSpaces where
  width_nil := rfl
  width_append_space s t := by
    show exampleWidth (s ++ ' ' :: t) = exampleWidth s + 1 + exampleWidth t
    fun_induction exampleWidth s with
    | case1 =>
      rw [List.nil_append, exampleWidth, if_neg (by decide), Nat.zero_add]
      exact fun _ hheart => absurd hheart (by decide)
    | case2 rest ih =>
      rw [List.cons_append, List.cons_append, exampleWidth, ih]
      omega
    | case3 c rest hother ih =>
      rw [List.cons_append, exampleWidth, ih]
      · omega
      · intro behind hheart hselector
        cases rest with
        | nil => exact absurd (List.cons.inj hselector).1 (by decide)
        | cons d rest =>
          obtain ⟨rfl, -⟩ := List.cons.inj hselector
          exact hother rest hheart rfl

/-- The piece that is cut off the second word of a text fits. -/
theorem wrapped_chunk_fits_of_cut :
    exampleRuler.AddsAtSpaces ∧ 2 ≤ 2 ∧ ['c', 'd'] ∈ exampleRuler.wrap 2 "ab cde".toList ∧
      (exampleRuler.width ['c', 'd'] ≤ 2 ∨
        (∃ word ∈ words "ab cde".toList, 2 < exampleRuler.width word ∧ ['c', 'd'] <:+: word) ∧
          (exampleRuler.total ['c', 'd'] ≤ 2 ∨ ∃ c, ['c', 'd'] = [c] ∧ 2 < exampleRuler.charWidth c)) := by
  have hmem : ['c', 'd'] ∈ exampleRuler.wrap 2 "ab cde".toList := by decide +kernel
  exact ⟨addsAtSpaces_exampleRuler, Nat.le_refl 2, hmem,
    wrapped_chunk_fits addsAtSpaces_exampleRuler (Nat.le_refl 2) hmem⟩

/-- Two hearts take four columns, and stay one chunk where there is room for two, as their characters alone take no
more. -/
theorem wrapped_chunk_exceeds :
    exampleRuler.AddsAtSpaces ∧
      exampleRuler.wrap 2 ['❤', '\ufe0f', '❤', '\ufe0f'] = [['❤', '\ufe0f', '❤', '\ufe0f']] ∧
      exampleRuler.width ['❤', '\ufe0f', '❤', '\ufe0f'] = 4 ∧
      exampleRuler.total ['❤', '\ufe0f', '❤', '\ufe0f'] = 2 :=
  ⟨addsAtSpaces_exampleRuler, by decide +kernel⟩

end Text.Ruler

/-- The ruler of a terminal adds up at spaces. -/
theorem Table.addsAtSpaces_ruler : Table.ruler.AddsAtSpaces :=
  ⟨rfl, Text.displayWidth_append_space⟩

end LintDebt
