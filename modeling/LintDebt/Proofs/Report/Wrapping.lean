import LintDebt.Proofs.Report.Wrap
import Mathlib.Algebra.Order.BigOperators.Group.List
import Mathlib.Algebra.Order.Group.Nat
import Mathlib.Logic.Function.Iterate

/-!
# Wrapping step by step

Wrapping takes words into the chunk at hand, and cuts a piece off the word in front as long as that is too wide.
Nothing says that a piece makes the word fit: to a ruler it may be too wide until all of it is cut off.  But each
piece takes a character with it, and so wrapping comes to its end with any ruler for which the empty text fits.

* `LintDebt.Text.Wrapping`: what wrapping has at hand between two steps.
* `LintDebt.Text.Ruler.step`: one step of it.
* `LintDebt.Text.Ruler.outcome_step`: a step keeps the chunks that wrapping ends with.
* `LintDebt.Text.Ruler.ahead_iterate`: nothing is left after as many steps as there are words and characters.
* `LintDebt.Text.Ruler.IsRun`, `LintDebt.Text.Ruler.IsChunk`: what a chunk is made of.
* `LintDebt.Text.Ruler.isChunk_of_mem_fill`: the chunks of words are made of them.
* `LintDebt.Text.Ruler.WrapsTo`, `LintDebt.Text.Ruler.wrapsTo_wrap`: wrapping ends, keeps all characters, and makes
  chunks of words.
-/

namespace LintDebt.Text

/-! ## Words -/

/-- The pieces of a text and the separators between them are as long as the text. -/
theorem sum_length_split (separator : Char) (s : List Char) :
    ((split separator s).map (·.length + 1)).sum = s.length + 1 := by
  induction s with
  | nil => rfl
  | cons c rest ih =>
    obtain ⟨piece, pieces, hsplit⟩ := List.exists_cons_of_ne_nil (split_ne_nil separator rest)
    rw [hsplit] at ih
    simp only [split, hsplit, List.length_cons]
    split_ifs
    · simp only [List.map_cons, List.sum_cons, List.length_nil] at ih ⊢
      omega
    · simp only [List.map_cons, List.sum_cons, List.length_cons] at ih ⊢
      omega

/-- Another word goes behind words with a space between any two. -/
theorem intercalate_append_singleton {words : List (List Char)} (hne : words ≠ []) (word : List Char) :
    [' '].intercalate (words ++ [word]) = [' '].intercalate words ++ ' ' :: word := by
  induction words with
  | nil => exact absurd rfl hne
  | cons first words ih =>
    by_cases hwords : words = []
    · subst hwords
      rw [List.singleton_append, List.intercalate_cons_cons, List.intercalate_singleton,
        List.intercalate_singleton, List.append_assoc, List.singleton_append]
    · have happend : words ++ [word] ≠ [] := List.append_ne_nil_of_left_ne_nil hwords _
      rw [List.cons_append, List.intercalate_cons_of_ne_nil happend, ih hwords,
        List.intercalate_cons_of_ne_nil hwords, List.append_assoc (first ++ [' '])]

/-! ## Wrapping under way -/

/-- What wrapping has at hand between two steps: the chunks that are done, the chunk that words are taken into,
and the words ahead, the first of which may be what is left of one. -/
structure Wrapping where
  done : List (List Char)
  current : List Char
  ahead : List (List Char)

namespace Wrapping

/-- The chunks when no words are ahead any more. -/
def chunks (w : Wrapping) : List (List Char) :=
  w.done ++ Ruler.flush w.current

/-- How much is ahead: the words and their characters. -/
def load (w : Wrapping) : Nat :=
  (w.ahead.map (·.length + 1)).sum

/-- Only the word in front may be used up, and only while the chunk at hand holds nothing: what is left of a word
goes into a chunk of its own. -/
structure IsSound (w : Wrapping) : Prop where
  current_of_mem : [] ∈ w.ahead → w.current = []
  not_mem_tail : [] ∉ w.ahead.tail

theorem isSound_of_not_mem {w : Wrapping} (h : [] ∉ w.ahead) : w.IsSound where
  current_of_mem hmem := absurd hmem h
  not_mem_tail hmem := h (List.mem_of_mem_tail hmem)

end Wrapping

namespace Ruler

variable (r : Ruler) (max : Nat)

/-! ## Cutting a word -/

/-- The first piece of a word and the rest of it.  The piece is as wide as there is room, each character measured
alone, but holds at least one. -/
def cutOnce : List Char → List Char × List Char
  | [] => ([], [])
  | c :: rest => (c :: (r.fit max (r.charWidth c) rest).1, (r.fit max (r.charWidth c) rest).2)

section

variable {r max} {current word piece : List Char} {rest : List (List Char)}

theorem length_cutOnce_lt (h : word ≠ []) :
    (r.cutOnce max word).2.length < word.length := by
  cases word with
  | nil => exact absurd rfl h
  | cons c rest => exact Nat.lt_succ_of_le (r.length_fit_le max (r.charWidth c) rest)

/-- A word that is too wide holds something, when the empty text fits. -/
theorem ne_nil_of_lt (hnil : r.width [] ≤ max) (h : max < r.width word) : word ≠ [] := by
  rintro rfl
  exact absurd h (Nat.not_lt_of_le hnil)

/-- A word that is too wide loses its first piece, and the rest of it is cut on. -/
theorem cut_of_lt (hne : word ≠ []) (h : max < r.width word) :
    r.cut max word = ((r.cutOnce max word).1 :: (r.cut max (r.cutOnce max word).2).1,
      (r.cut max (r.cutOnce max word).2).2) := by
  cases word with
  | nil => exact absurd rfl hne
  | cons c rest =>
    rw [cut, if_neg (Nat.not_le_of_lt h)]
    rfl

/-- Only of a word that is too wide less than the whole is left. -/
theorem lt_width_of_cut_ne (h : (r.cut max word).2 ≠ word) : max < r.width word := by
  by_contra hfits
  rw [cut_of_le (Nat.le_of_not_lt hfits)] at h
  exact h rfl

/-! ## Filling chunks -/

/-- A word that fits is taken into the chunk at hand, or starts the next. -/
theorem fill_cons_of_le (h : r.width word ≤ max) :
    r.fill max current (word :: rest) =
      if current.isEmpty then r.fill max word rest
      else if r.width current + 1 + r.width word ≤ max then r.fill max (current ++ ' ' :: word) rest
      else current :: r.fill max word rest := by
  rw [fill, cut_of_le h]

/-- A word that is cut ends the chunk at hand. -/
theorem fill_cons_of_cut (h : (r.cut max word).1 ≠ []) :
    r.fill max current (word :: rest) =
      flush current ++ (r.cut max word).1 ++ r.fill max (r.cut max word).2 rest := by
  rw [fill]
  split
  · next hcut => exact absurd (congrArg Prod.fst hcut) h
  · next hcut => rw [hcut]

/-- Behind nothing a word starts a chunk, whether it is cut or not. -/
theorem fill_nil_cons :
    r.fill max [] (word :: rest) = (r.cut max word).1 ++ r.fill max (r.cut max word).2 rest := by
  rw [fill]
  split
  · next hcut => rw [hcut]; rfl
  · next hcut => rw [hcut]; rfl

end

/-! ## Steps -/

/-- What happens to a word that fits: it is taken into the chunk at hand, if there is room, or starts the next. -/
def place (word : List Char) (w : Wrapping) : Wrapping :=
  if word.isEmpty then w
  else if w.current.isEmpty then { w with current := word }
  else if r.width w.current + 1 + r.width word ≤ max then { w with current := w.current ++ ' ' :: word }
  else { w with done := w.done ++ [w.current], current := word }

/-- One step of wrapping, which looks at the word in front: when it is too wide a piece is cut off, which makes a
chunk behind the one at hand, and otherwise the word is placed.  Without words ahead wrapping is at rest. -/
def step (w : Wrapping) : Wrapping :=
  match w.ahead with
  | [] => w
  | word :: words =>
    if max < r.width word then
      { done := w.done ++ flush w.current ++ [(r.cutOnce max word).1]
        current := []
        ahead := (r.cutOnce max word).2 :: words }
    else r.place max word { w with ahead := words }

/-- Where wrapping a text starts: a text that stays whole is one chunk, and there is nothing to do. -/
def start (s : List Char) : Wrapping :=
  if r.width s ≤ max ∨ max ≤ 1 then ⟨[s], [], []⟩ else ⟨[], [], words s⟩

/-- The chunks that are done when all words ahead have been taken. -/
def outcome (w : Wrapping) : List (List Char) :=
  w.done ++ r.fill max w.current w.ahead

variable {r max}

@[simp] theorem ahead_place (word : List Char) (w : Wrapping) : (r.place max word w).ahead = w.ahead := by
  unfold place
  split_ifs <;> rfl

variable {done rest : List (List Char)} {current word : List Char}

theorem step_of_lt (h : max < r.width word) :
    r.step max ⟨done, current, word :: rest⟩ =
      ⟨done ++ flush current ++ [(r.cutOnce max word).1], [], (r.cutOnce max word).2 :: rest⟩ :=
  if_pos h

theorem step_of_le (h : r.width word ≤ max) :
    r.step max ⟨done, current, word :: rest⟩ = r.place max word ⟨done, current, rest⟩ :=
  if_neg (Nat.not_lt_of_le h)

/-! ## What a step keeps -/

/-- A step keeps it so that only the word in front may be used up, and only while the chunk at hand holds nothing. -/
theorem isSound_step {w : Wrapping} (h : w.IsSound) : (r.step max w).IsSound := by
  obtain ⟨done, current, ahead⟩ := w
  cases ahead with
  | nil => exact h
  | cons word words =>
    rcases Nat.lt_or_ge max (r.width word) with hwide | hfits
    · rw [step_of_lt hwide]
      exact ⟨fun _ => rfl, h.not_mem_tail⟩
    · rw [step_of_le hfits]
      exact Wrapping.isSound_of_not_mem (by rw [ahead_place]; exact h.not_mem_tail)

/-- Placing a word leads to the same chunks as having it ahead. -/
theorem outcome_place (hne : word ≠ []) (h : r.width word ≤ max) :
    r.outcome max (r.place max word ⟨done, current, rest⟩) = r.outcome max ⟨done, current, word :: rest⟩ := by
  unfold outcome place
  rw [fill_cons_of_le h, if_neg (by simpa using hne)]
  split_ifs
  · rfl
  · rfl
  · exact List.append_assoc done [current] _

/-- Cutting a piece off a word leads to the same chunks as having the whole word ahead. -/
theorem outcome_cutOnce (hne : word ≠ []) (h : max < r.width word) :
    r.outcome max ⟨done ++ flush current ++ [(r.cutOnce max word).1], [], (r.cutOnce max word).2 :: rest⟩ =
      r.outcome max ⟨done, current, word :: rest⟩ := by
  have hcut : (r.cut max word).1 ≠ [] := by
    rw [cut_of_lt hne h]
    exact List.cons_ne_nil _ _
  unfold outcome
  rw [fill_nil_cons, fill_cons_of_cut hcut, cut_of_lt hne h]
  simp only [List.append_assoc, List.cons_append, List.nil_append]

/-- A step keeps the chunks that wrapping ends with. -/
theorem outcome_step (hnil : r.width [] ≤ max) {w : Wrapping} (h : w.IsSound) :
    r.outcome max (r.step max w) = r.outcome max w := by
  obtain ⟨done, current, ahead⟩ := w
  cases ahead with
  | nil => rfl
  | cons word words =>
    rcases Nat.lt_or_ge max (r.width word) with hwide | hfits
    · have hne := ne_nil_of_lt hnil hwide
      rw [step_of_lt hwide, outcome_cutOnce hne hwide]
    · rw [step_of_le hfits]
      by_cases hne : word = []
      · -- A used up word is passed over, where `fill` puts it behind a space unless nothing is at hand.
        subst hne
        obtain rfl : current = [] := h.current_of_mem List.mem_cons_self
        unfold outcome
        rw [fill_nil_cons, cut_of_le hnil]
        rfl
      · exact outcome_place hne hfits

/-! ## The end of wrapping -/

/-- There is less ahead after a step, when the empty text fits. -/
theorem load_step_lt (hnil : r.width [] ≤ max) {w : Wrapping} (h : w.ahead ≠ []) :
    (r.step max w).load < w.load := by
  obtain ⟨done, current, ahead⟩ := w
  cases ahead with
  | nil => exact absurd rfl h
  | cons word words =>
    rcases Nat.lt_or_ge max (r.width word) with hwide | hfits
    · have hne := ne_nil_of_lt hnil hwide
      rw [step_of_lt hwide]
      simpa [Wrapping.load] using length_cutOnce_lt hne
    · rw [step_of_le hfits]
      simp [Wrapping.load]

/-- With nothing ahead wrapping is at rest. -/
theorem step_of_ahead_eq_nil {w : Wrapping} (h : w.ahead = []) : r.step max w = w := by
  obtain ⟨done, current, ahead⟩ := w
  subst h
  rfl

/-- Nothing is ahead after as many steps as there are words and characters ahead. -/
theorem ahead_iterate (hnil : r.width [] ≤ max) {w : Wrapping} {n : Nat} (h : w.load ≤ n) :
    ((r.step max)^[n] w).ahead = [] := by
  -- Each step pays for itself out of the load, until wrapping is at rest.
  induction n generalizing w with
  | zero =>
    by_contra hahead
    exact absurd (load_step_lt hnil hahead) (Nat.not_lt_of_le (Nat.le_trans h (Nat.zero_le _)))
  | succ n ih =>
    rw [Function.iterate_succ_apply]
    by_cases hahead : w.ahead = []
    · have hrest : w.load = 0 := by rw [Wrapping.load, hahead]; rfl
      rw [step_of_ahead_eq_nil hahead]
      exact ih (by omega)
    · have hless := load_step_lt hnil hahead
      exact ih (by omega)

/-- Steps keep the chunks that wrapping ends with. -/
theorem outcome_iterate (hnil : r.width [] ≤ max) {w : Wrapping} (h : w.IsSound) (n : Nat) :
    r.outcome max ((r.step max)^[n] w) = r.outcome max w := by
  induction n generalizing w with
  | zero => rfl
  | succ n ih => rw [Function.iterate_succ_apply, ih (isSound_step h), outcome_step hnil h]

/-- With nothing ahead the chunks that wrapping ends with are there. -/
theorem outcome_of_ahead_eq_nil {w : Wrapping} (h : w.ahead = []) : r.outcome max w = w.chunks := by
  rw [outcome, h, fill]
  rfl

/-- Wrapping starts with nothing used up: no word of a text is empty. -/
theorem isSound_start (s : List Char) : (r.start max s).IsSound := by
  apply Wrapping.isSound_of_not_mem
  unfold start
  split_ifs
  · exact List.not_mem_nil
  · intro hmem
    simpa using List.of_mem_filter hmem

theorem outcome_start (s : List Char) : r.outcome max (r.start max s) = r.wrap max s := by
  unfold start wrap
  split_ifs
  · rw [outcome_of_ahead_eq_nil rfl]
    rfl
  · rfl

theorem load_start_le (s : List Char) : (r.start max s).load ≤ s.length + 1 := by
  unfold start
  split_ifs
  · exact Nat.zero_le _
  · calc ((words s).map (·.length + 1)).sum ≤ ((split ' ' s).map (·.length + 1)).sum :=
          (List.filter_sublist.map _).sum_le_sum fun _ _ => Nat.zero_le _
      _ = s.length + 1 := sum_length_split ' ' s

/-! ## What chunks are made of -/

variable (r max)

/-- A chunk is a run of words: one space stands between any two of them, and all are whole, unless the first is too
wide, of which only an end may be there. -/
def IsRun (run : List (List Char)) (chunk : List Char) : Prop :=
  ∃ word following first, run = word :: following ∧ first <:+ word ∧ first ≠ [] ∧
    (first ≠ word → max < r.width word) ∧ chunk = [' '].intercalate (first :: following)

/-- The chunks that words may make: runs of consecutive words, and pieces of a word that is too wide. -/
inductive IsChunk (words : List (List Char)) (chunk : List Char) : Prop
  | run {run : List (List Char)} (infix_words : run <:+: words) (isRun : r.IsRun max run chunk)
  | piece {word : List Char} (mem_words : word ∈ words) (wide : max < r.width word) (infix_word : chunk <:+: word)

variable {r max}

/-- A run goes on with another word behind a space. -/
theorem IsRun.append_space {run : List (List Char)} {chunk : List Char} (h : r.IsRun max run chunk)
    (word : List Char) : r.IsRun max (run ++ [word]) (chunk ++ ' ' :: word) := by
  obtain ⟨start, following, first, rfl, hend, hne, hwide, rfl⟩ := h
  exact ⟨start, following ++ [word], first, rfl, hend, hne, hwide,
    (intercalate_append_singleton (List.cons_ne_nil first following) word).symm⟩

/-- What is left of a word starts a run. -/
theorem isRun_cut {word : List Char} (hne : (r.cut max word).2 ≠ []) : r.IsRun max [word] (r.cut max word).2 :=
  ⟨word, [], (r.cut max word).2, rfl, r.isSuffix_cut max word, hne, lt_width_of_cut_ne,
    List.intercalate_singleton.symm⟩

variable (r max) in
/-- A chunk at hand when words have been read: it holds nothing, or is a run of the last of them. -/
def IsOpen (read : List (List Char)) (current : List Char) : Prop :=
  current = [] ∨ ∃ run, run <:+ read ∧ r.IsRun max run current

/-- What is left of a word is at hand when the word has been read. -/
theorem isOpen_cut (read : List (List Char)) (word : List Char) :
    r.IsOpen max (read ++ [word]) (r.cut max word).2 := by
  by_cases hne : (r.cut max word).2 = []
  · exact Or.inl hne
  · exact Or.inr ⟨[word], List.suffix_append read [word], isRun_cut hne⟩

/-- A chunk at hand that holds something goes on with the next word. -/
theorem IsOpen.append_space {read : List (List Char)} {current : List Char} (h : r.IsOpen max read current)
    (hne : current ≠ []) (word : List Char) : r.IsOpen max (read ++ [word]) (current ++ ' ' :: word) := by
  obtain ⟨run, ⟨before, rfl⟩, hrun⟩ := h.resolve_left hne
  exact Or.inr ⟨run ++ [word], ⟨before, (List.append_assoc before run [word]).symm⟩, hrun.append_space word⟩

/-- The chunks of words hold something and are made of the words. -/
theorem isChunk_of_mem_fill {words : List (List Char)} {chunk : List Char} (h : chunk ∈ r.fill max [] words) :
    chunk ≠ [] ∧ r.IsChunk max words chunk := by
  obtain ⟨hne, ⟨read, hread, hopen⟩ | ⟨word, hword, hpiece⟩⟩ :=
    r.of_mem_fill max (P := r.IsOpen max) (List.nil_append words) (Or.inl rfl)
      (fun read word _ => isOpen_cut read word) (fun _ _ hne hopen word _ _ => hopen.append_space hne word) h
  · obtain ⟨run, hrun, hchunk⟩ := hopen.resolve_left hne
    exact ⟨hne, .run (hrun.isInfix.trans hread.isInfix) hchunk⟩
  · exact ⟨hne, .piece hword (lt_width_of_mem_cut hpiece) (r.isInfix_of_mem_cut max hpiece)⟩

/-! ## Wrapping -/

/-- A text is wrapped to chunks: wrapping is at rest after no more steps than the text has characters, and one, and
there the chunks are; these have the characters of the text other than spaces, in their order; and where the text is
not left whole, none of them is empty and they are made of its words. -/
structure WrapsTo (r : Ruler) (max : Nat) (s : List Char) (chunks : List (List Char)) : Prop where
  ends : ((r.step max)^[s.length + 1] (r.start max s)).ahead = []
  result : ((r.step max)^[s.length + 1] (r.start max s)).chunks = chunks
  keeps : withoutSpaces chunks.flatten = withoutSpaces s
  isChunk : 1 < max → max < r.width s → ∀ chunk ∈ chunks, chunk ≠ [] ∧ r.IsChunk max (words s) chunk

/-- With any ruler for which the empty text takes no columns, every text is wrapped to its chunks at any width. -/
theorem wrapsTo_wrap {r : Ruler} (hnil : r.width [] = 0) (max : Nat) (s : List Char) :
    r.WrapsTo max s (r.wrap max s) := by
  have hfits : r.width [] ≤ max := hnil ▸ Nat.zero_le max
  have hend : ((r.step max)^[s.length + 1] (r.start max s)).ahead = [] :=
    ahead_iterate hfits (load_start_le s)
  refine ⟨hend, ?_, r.withoutSpaces_wrap max s, ?_⟩
  · calc ((r.step max)^[s.length + 1] (r.start max s)).chunks
        = r.outcome max ((r.step max)^[s.length + 1] (r.start max s)) := (outcome_of_ahead_eq_nil hend).symm
      _ = r.outcome max (r.start max s) := outcome_iterate hfits (isSound_start s) _
      _ = r.wrap max s := outcome_start s
  · intro hmax hwide chunk hchunk
    rw [wrap, if_neg (not_or.mpr ⟨Nat.not_le_of_lt hwide, Nat.not_le_of_lt hmax⟩)] at hchunk
    exact isChunk_of_mem_fill hchunk

/-- A text with a word that is cut in two, the second part of which shares a chunk with the word behind. -/
theorem wrapsTo_wrap_of_cut :
    Table.ruler.width [] = 0 ∧ (1 < 4 ∧ 4 < Table.ruler.width "xy 漢字ab c".toList) ∧
      Table.ruler.WrapsTo 4 "xy 漢字ab c".toList ["xy".toList, "漢字".toList, "ab c".toList] := by
  have hnil : Table.ruler.width [] = 0 := by decide +kernel
  have hwide : 4 < Table.ruler.width "xy 漢字ab c".toList := by decide +kernel
  have hwrap : Table.ruler.wrap 4 "xy 漢字ab c".toList = ["xy".toList, "漢字".toList, "ab c".toList] := by
    decide +kernel
  have hwraps := wrapsTo_wrap hnil 4 "xy 漢字ab c".toList
  rw [hwrap] at hwraps
  exact ⟨hnil, ⟨by decide, hwide⟩, hwraps⟩

end Ruler

end LintDebt.Text
