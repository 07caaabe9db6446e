import LintDebt.Text.Split

/-!
# Wrapping text

A text that is too wide for its column is broken between words, and a word that is too wide on
its own is cut.  How wide a text is, is left open: a ruler says it.

* `LintDebt.Text.Ruler`: the width of a text, and of a character alone.
* `LintDebt.Text.Ruler.cut`: the pieces of a word that is too wide.
* `LintDebt.Text.Ruler.fill`: words put side by side as long as they fit.
* `LintDebt.Text.Ruler.wrap`: a text as chunks.
-/

namespace LintDebt.Text

/-- How wide texts are. -/
structure Ruler where
  /-- The width of a text. -/
  width : List Char → Nat
  /-- The width of a character alone. -/
  charWidth : Char → Nat

namespace Ruler

variable (r : Ruler) (max : Nat)

/-- The characters that still fit when `used` columns are taken, and the rest, each character
measured alone. -/
def fit (used : Nat) : List Char → List Char × List Char
  | [] => ([], [])
  | c :: rest =>
    if used + r.charWidth c > max then ([], c :: rest)
    else
      let (fitting, left) := fit (used + r.charWidth c) rest
      (c :: fitting, left)

theorem fit_append (used : Nat) (s : List Char) :
    (r.fit max used s).1 ++ (r.fit max used s).2 = s := by
  induction s generalizing used with
  | nil => rfl
  | cons c rest ih =>
    unfold fit
    split
    · rfl
    · simp [ih]

theorem length_fit_le (used : Nat) (s : List Char) : (r.fit max used s).2.length ≤ s.length := by
  have h := congrArg List.length (r.fit_append max used s)
  rw [List.length_append] at h
  omega

/-- The pieces that are cut off a word as long as it is too wide, and what is left of it.  A piece
holds at least one character. -/
def cut (word : List Char) : List (List Char) × List Char :=
  if r.width word ≤ max then ([], word)
  else
    match word with
    | [] => ([], [])
    | c :: rest =>
      let piece := c :: (r.fit max (r.charWidth c) rest).1
      let (pieces, last) := cut (r.fit max (r.charWidth c) rest).2
      (piece :: pieces, last)
termination_by word.length
decreasing_by exact Nat.lt_succ_of_le (length_fit_le r max (r.charWidth c) rest)

/-- A chunk, unless it holds nothing. -/
def flush (chunk : List Char) : List (List Char) :=
  if chunk.isEmpty then [] else [chunk]

/-- The chunks of words, the first of which stands behind `current` when it fits. -/
def fill (current : List Char) : List (List Char) → List (List Char)
  | [] => flush current
  | word :: words =>
    match r.cut max word with
    | ([], word) =>
      if current.isEmpty then fill word words
      else if r.width current + 1 + r.width word ≤ max then fill (current ++ ' ' :: word) words
      else current :: fill word words
    | (pieces, last) => flush current ++ pieces ++ fill last words

/-- The chunks of a text; a text that is not too wide is one chunk, as is any text when there is
no room for more than one column. -/
def wrap (s : List Char) : List (List Char) :=
  if r.width s ≤ max ∨ max ≤ 1 then [s] else r.fill max [] (words s)

end Ruler

end LintDebt.Text
