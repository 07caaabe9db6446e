import LintDebt.Text.Wrap

/-!
# What wrapping leaves of a text

Wrapping may take spaces away or put them elsewhere.  Everything else stays, in its order, however wide the
ruler takes it to be.

* `LintDebt.Text.withoutSpaces`: the characters of a text other than spaces.
* `LintDebt.Text.Ruler.flatten_cut`: the pieces of a word and what is left of it make up the word.
* `LintDebt.Text.Ruler.withoutSpaces_wrap`: the chunks of a text have its characters.
* `LintDebt.Text.Ruler.mem_of_mem_wrap`: a chunk holds no other characters.
-/

namespace LintDebt.Text

/-- The characters of a text other than spaces. -/
def withoutSpaces (s : List Char) : List Char :=
  s.filter (· != ' ')

@[simp] theorem withoutSpaces_append (s t : List Char) :
    withoutSpaces (s ++ t) = withoutSpaces s ++ withoutSpaces t :=
  List.filter_append s t

@[simp] theorem withoutSpaces_cons (c : Char) (s : List Char) :
    withoutSpaces (c :: s) = if c = ' ' then withoutSpaces s else c :: withoutSpaces s := by
  by_cases hc : c = ' ' <;> simp [withoutSpaces, hc]

@[simp] theorem withoutSpaces_withoutSpaces (s : List Char) :
    withoutSpaces (withoutSpaces s) = withoutSpaces s := by
  simp [withoutSpaces]

/-- The pieces between spaces have the characters of the text. -/
theorem flatten_split (s : List Char) : (split ' ' s).flatten = withoutSpaces s := by
  induction s with
  | nil => rfl
  | cons c rest ih =>
    by_cases hc : c = ' '
    · subst hc
      simpa [split] using ih
    · obtain ⟨piece, pieces, hsplit⟩ := List.exists_cons_of_ne_nil (split_ne_nil ' ' rest)
      rw [hsplit] at ih
      simp [split, hc, hsplit, ← ih]

/-- The words of a text have its characters. -/
theorem flatten_words (s : List Char) : (words s).flatten = withoutSpaces s := by
  unfold words
  rw [List.flatten_filter_not_isEmpty, flatten_split]

namespace Ruler

variable (r : Ruler) (max : Nat)

/-- The pieces that are cut off a word and what is left of it make up the word. -/
theorem flatten_cut (word : List Char) :
    (r.cut max word).1.flatten ++ (r.cut max word).2 = word := by
  fun_induction cut r max word with
  | case1 word hfits => rfl
  | case2 => rfl
  | case3 c rest piece pieces last hcut hwide ih =>
    rw [hcut] at ih
    have hpiece : piece ++ (r.fit max (r.charWidth c) rest).2 = c :: rest :=
      congrArg (c :: ·) (r.fit_append max (r.charWidth c) rest)
    simpa [ih] using hpiece

/-- A word that no pieces are cut off is left whole. -/
theorem eq_of_cut_eq {word left : List Char} (h : r.cut max word = ([], left)) : left = word := by
  simpa [h] using r.flatten_cut max word

/-- A chunk that holds nothing takes nothing with it. -/
@[simp] theorem flatten_flush (chunk : List Char) : (flush chunk).flatten = chunk := by
  unfold flush
  split
  · next hempty => rw [List.isEmpty_iff.mp hempty, List.flatten_nil]
  · exact List.flatten_singleton

/-- The chunks of words have the characters of the words. -/
theorem withoutSpaces_fill (current : List Char) (words : List (List Char)) :
    withoutSpaces (r.fill max current words).flatten = withoutSpaces (current ++ words.flatten) := by
  fun_induction fill r max current words with
  | case1 current => simp
  | case2 current word words word' hcut hempty ih =>
    have hword := r.eq_of_cut_eq max hcut
    rw [ih, hword, List.isEmpty_iff.mp hempty, List.nil_append, List.flatten_cons]
  | case3 current word words word' hcut hroom hfits ih =>
    have hword := r.eq_of_cut_eq max hcut
    rw [ih, hword]
    simp
  | case4 current word words word' hcut hroom hfull ih =>
    have hword := r.eq_of_cut_eq max hcut
    rw [List.flatten_cons, withoutSpaces_append, ih, hword]
    simp
  | case5 current word words pieces last hpieces hcut ih =>
    have hword : pieces.flatten ++ last = word := by simpa [hcut] using r.flatten_cut max word
    simp [ih, ← hword]

/-- The chunks of a text have its characters other than spaces, in their order. -/
theorem withoutSpaces_wrap (s : List Char) :
    withoutSpaces (r.wrap max s).flatten = withoutSpaces s := by
  unfold wrap
  split
  · rw [List.flatten_singleton]
  · rw [withoutSpaces_fill, List.nil_append, flatten_words]
    exact withoutSpaces_withoutSpaces s

/-- A chunk of a text holds only characters of the text, and spaces. -/
theorem mem_of_mem_wrap {s chunk : List Char} {c : Char} (hchunk : chunk ∈ r.wrap max s)
    (hc : c ∈ chunk) : c = ' ' ∨ c ∈ s := by
  by_cases hspace : c = ' '
  · exact Or.inl hspace
  · have hkept : c ∈ withoutSpaces (r.wrap max s).flatten :=
      List.mem_filter.mpr ⟨List.mem_flatten.mpr ⟨chunk, hchunk, hc⟩, by simpa using hspace⟩
    rw [withoutSpaces_wrap] at hkept
    exact Or.inr (List.mem_filter.mp hkept).1

end Ruler

end LintDebt.Text
