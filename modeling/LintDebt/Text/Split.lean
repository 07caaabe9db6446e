/-!
# Splitting a text

* `LintDebt.Text.split`: the pieces of a text between the occurrences of a character.
* `LintDebt.Text.words`: the pieces between spaces that hold something.
-/

namespace LintDebt.Text

/-- The pieces of a text between the occurrences of a character; the last piece is what follows
the last occurrence. -/
def split (separator : Char) : List Char → List (List Char)
  | [] => [[]]
  | c :: rest =>
    if c = separator then [] :: split separator rest
    else
      match split separator rest with
      | [] => [[c]]
      | piece :: pieces => (c :: piece) :: pieces

/-- The pieces of a text between spaces that hold something. -/
def words (s : List Char) : List (List Char) :=
  (split ' ' s).filter fun word => !word.isEmpty

theorem split_ne_nil (separator : Char) (s : List Char) : split separator s ≠ [] := by
  cases s with
  | nil => simp [split]
  | cons c rest =>
    unfold split
    split
    · simp
    · split <;> simp

end LintDebt.Text
