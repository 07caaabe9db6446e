/-!
# Runs of decimal digits

* `LintDebt.Text.takeDigits`: the digits a text starts with, and what follows them.
* `LintDebt.Text.digitsValue`: the number that a run of digits denotes.
* `LintDebt.Text.decimalDigits`: a number in decimal digits.
* `LintDebt.Text.hexValue?`: the value of one hexadecimal digit.
-/

namespace LintDebt.Text

/-- The digits that a text starts with, and what follows them. -/
def takeDigits (s : List Char) : List Char × List Char :=
  (s.takeWhile Char.isDigit, s.dropWhile Char.isDigit)

/-- The number that a run of decimal digits denotes. -/
def digitsValue (digits : List Char) : Nat :=
  Nat.ofDigitChars 10 digits 0

/-- A number in decimal digits, without leading zeros. -/
def decimalDigits (n : Nat) : List Char :=
  Nat.toDigits 10 n

/-- Nothing is lost by taking the digits off. -/
theorem takeDigits_append (s : List Char) : (takeDigits s).1 ++ (takeDigits s).2 = s := by
  simp [takeDigits]

@[simp] theorem digitsValue_decimalDigits (n : Nat) : digitsValue (decimalDigits n) = n :=
  Nat.ofDigitChars_toDigits (by decide) (by decide)

/-- The value of a hexadecimal digit, in either case. -/
def hexValue? (c : Char) : Option Nat :=
  if c.isDigit then some (c.toNat - '0'.toNat)
  else if 'a' ≤ c ∧ c ≤ 'f' then some (c.toNat - 'a'.toNat + 10)
  else if 'A' ≤ c ∧ c ≤ 'F' then some (c.toNat - 'A'.toNat + 10)
  else none

/-- The number that hexadecimal digits denote, read from the left on top of `start`. -/
def hexNumber? (start : Nat) : List Char → Option Nat
  | [] => some start
  | c :: rest => (hexValue? c).bind fun d => hexNumber? (16 * start + d) rest

/-- The lower-case hexadecimal digit of a value below sixteen. -/
def hexDigit (n : Nat) : Char :=
  Nat.digitChar n

/-- Whether a number is the code point of a character. -/
def isScalar (n : Nat) : Bool :=
  n < 0xD800 || (0xDFFF < n && n < 0x110000)

/-- The decimal digits of a text that is nothing but digits, after at most one plus sign, when the
number they denote is below `bound`. -/
def natBelow? (bound : Nat) (s : String) : Option Nat :=
  let digits := match s.toList with
    | '+' :: rest => rest
    | chars => chars
  if digits.isEmpty || !digits.all Char.isDigit then none
  else
    let n := digitsValue digits
    if n < bound then some n else none

end LintDebt.Text
