/-!
# Blank characters and trimming

* `LintDebt.Text.isBlank`: the characters with the White_Space property.
* `LintDebt.Text.trimStart`, `trimEnd`, `trim`: a text without the blanks at its ends.
* `LintDebt.Text.allBlank`: whether a text shows nothing.
-/

namespace LintDebt.Text

/-- A character is blank when it has the White_Space property. -/
def isBlank (c : Char) : Bool :=
  let n := c.toNat
  (9 ≤ n && n ≤ 13) || n == 0x20 || n == 0x85 || n == 0xA0 || n == 0x1680 ||
    (0x2000 ≤ n && n ≤ 0x200A) || n == 0x2028 || n == 0x2029 || n == 0x202F || n == 0x205F ||
    n == 0x3000

/-- The text from its first character that is not blank. -/
def trimStart (s : String) : String :=
  String.ofList (s.toList.dropWhile isBlank)

/-- The text up to its last character that is not blank. -/
def trimEnd (s : String) : String :=
  String.ofList (s.toList.reverse.dropWhile isBlank).reverse

/-- The text without the blanks at either end. -/
def trim (s : String) : String :=
  trimEnd (trimStart s)

/-- Whether every character of the text is blank. -/
def allBlank (s : String) : Bool :=
  s.toList.all isBlank

@[simp] theorem allBlank_empty : allBlank "" = true := by simp [allBlank]

end LintDebt.Text
