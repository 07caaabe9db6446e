import LintDebt.Date.Basic
import LintDebt.Json.Basic
import LintDebt.Text.Digits

/-!
# The schema of a stored todo

What other programs may rely on in a line of the log: which members a todo has, and of which form
they are.  Further members are allowed.  Numbers are taken in double precision.

* `LintDebt.Schema.isText`, `isCount`, `isDate`: the forms of simple values.
* `LintDebt.Schema.hasMember`, `mayHaveMember`: what an object must or may contain.
* `LintDebt.Schema.isTodo`: whether a JSON value has the form of a stored todo.
-/

namespace LintDebt.Schema

open LintDebt.Text (digitsValue decimalDigits)

/-! ## Numbers in double precision -/

/-- Whether the double-precision number nearest to `coefficient * 10 ^ exponent` is zero: the
value is at most half of the least positive number.  Far below that no power is computed. -/
def roundsToZero (coefficient : Nat) (exponent : Int) : Bool :=
  let digits : Int := (decimalDigits coefficient).length
  coefficient == 0 ||
    (exponent < 0 &&
      (digits + 400 < -exponent || coefficient <<< 1075 ≤ Json.tenTo (-exponent).toNat))

/-- Whether the double-precision number nearest to `coefficient / scale` is `whole`, for a quotient
and a positive whole number of at most 2 ^ 52: between a power of two and the next the numbers lie
2 ^ 52 to that stretch, and a tie goes to the whole number. -/
def roundsTo (whole coefficient scale : Nat) : Bool :=
  let k := whole.log2
  if whole * scale ≤ coefficient then
    (coefficient - whole * scale) <<< (53 - k) ≤ scale
  else
    let finer := if whole = 1 <<< k then 1 else 0
    (whole * scale - coefficient) <<< (53 + finer - k) ≤ scale

/-- Whether the double-precision number nearest to `coefficient * 10 ^ exponent` is whole. -/
def roundsToWhole (coefficient : Nat) (exponent : Int) : Bool :=
  0 ≤ exponent || roundsToZero coefficient exponent ||
    let digits : Int := (decimalDigits coefficient).length
    (-exponent ≤ digits + 1 &&
      let scale := Json.tenTo (-exponent).toNat
      let below := coefficient / scale
      1 <<< 52 ≤ below || (below != 0 && roundsTo below coefficient scale) ||
        roundsTo (below + 1) coefficient scale)

/-! ## Forms of values -/

/-- Whether a value is a text. -/
def isText : Json → Bool
  | .str _ => true
  | _ => false

/-- Whether a value is a whole number that is not negative, however it is written. -/
def isCount : Json → Bool
  | .int i => 0 ≤ i
  | .decimal negative coefficient exponent =>
    if negative then roundsToZero coefficient exponent
    else roundsToWhole coefficient exponent
  | _ => false

/-- Whether a text is a date in full: a year of four digits, or with a sign before them, a month
and a day of two digits each, with hyphens between them. -/
def isFullDate (s : String) : Bool :=
  let (negative, chars) := match s.toList with
    | '+' :: rest => (false, rest)
    | '-' :: rest => (true, rest)
    | chars => (false, chars)
  match chars with
  | [y₁, y₂, y₃, y₄, '-', m₁, m₂, '-', d₁, d₂] =>
    let year : Int := digitsValue [y₁, y₂, y₃, y₄]
    [y₁, y₂, y₃, y₄, m₁, m₂, d₁, d₂].all Char.isDigit &&
      (Date.ofYmd? (if negative then -year else year) (digitsValue [m₁, m₂])
        (digitsValue [d₁, d₂])).isSome
  | _ => false

/-- Whether a value is a date, or stands for none. -/
def isDate : Json → Bool
  | .str s => isFullDate s
  | .null => true
  | _ => false

/-! ## Objects -/

/-- Whether an object has a member of a form. -/
def hasMember (name : String) (form : Json → Bool) (j : Json) : Bool :=
  match j.get? name with
  | some value => form value
  | none => false

/-- Whether the member of an object, if it has it, is of a form. -/
def mayHaveMember (name : String) (form : Json → Bool) (j : Json) : Bool :=
  match j.get? name with
  | some value => form value
  | none => true

/-- Whether a value has the form of a position. -/
def isPosition (j : Json) : Bool :=
  hasMember "line" isCount j && hasMember "column" isCount j

/-- Whether a value has the form of a span. -/
def isSpan (j : Json) : Bool :=
  hasMember "start" isPosition j && hasMember "end" isPosition j

/-- Whether a value has the form of a stored todo. -/
def isTodo (j : Json) : Bool :=
  ["engine", "filePath", "ruleId"].all (hasMember · isText j) && hasMember "range" isSpan j &&
    mayHaveMember "source" isText j &&
    ["createdDate", "warnDate", "errorDate"].all (mayHaveMember · isDate j)

end LintDebt.Schema
