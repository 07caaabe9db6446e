import LintDebt.Date.Basic
import LintDebt.Text.Blank
import LintDebt.Text.Digits

/-!
# Dates as text

A date is written as year, month and day joined by hyphens.  Years from 0 to 9999 take four
digits; every other year takes a sign and at least four digits.  Reading allows fewer digits, and
blanks around each number.

* `LintDebt.Date.render`: the text of a date.
* `LintDebt.Date.parse?`: the date that a text denotes.
-/

namespace LintDebt.Date

open LintDebt.Text (isBlank takeDigits digitsValue decimalDigits)

/-- A number in at least `width` digits. -/
def padded (width n : Nat) : List Char :=
  let digits := decimalDigits n
  List.replicate (width - digits.length) '0' ++ digits

/-- The text of a year. -/
def renderYear (year : Int) : List Char :=
  if 0 ≤ year ∧ year ≤ 9999 then padded 4 year.toNat
  else (if year < 0 then '-' else '+') :: padded 4 year.natAbs

/-- The characters of a date. -/
def renderChars (d : Date) : List Char :=
  let (year, month, day) := d.ymd
  renderYear year ++ '-' :: (padded 2 month ++ '-' :: padded 2 day)

/-- The text of a date. -/
def render (d : Date) : String :=
  String.ofList d.renderChars

/-- Reads a number of at least one digit and at most `most`, if there is a bound. -/
def digits? (most : Option Nat) (s : List Char) : Option (Nat × List Char) :=
  let (digits, rest) := takeDigits s
  let kept := match most with
    | some n => digits.take n
    | none => digits
  if kept.isEmpty then none
  else some (digitsValue kept, digits.drop kept.length ++ rest)

/-- Reads a year: of any length behind a sign, of at most four digits without one. -/
def year? (s : List Char) : Option (Int × List Char) :=
  match s with
  | '-' :: rest => (digits? none rest).map fun (n, rest) => (-(n : Int), rest)
  | '+' :: rest => (digits? none rest).map fun (n, rest) => ((n : Int), rest)
  | _ => (digits? (some 4) s).map fun (n, rest) => ((n : Int), rest)

/-- Takes a hyphen, with the blanks around it, off the front of a text. -/
def hyphen? (s : List Char) : Option (List Char) :=
  match s.dropWhile isBlank with
  | '-' :: rest => some (rest.dropWhile isBlank)
  | _ => none

/-- The date that a text denotes. -/
def parse? (text : String) : Option Date := do
  let (year, s) ← year? (text.toList.dropWhile isBlank)
  let s ← hyphen? s
  let (month, s) ← digits? (some 2) s
  let s ← hyphen? s
  let (day, s) ← digits? (some 2) s
  if s.all isBlank then ofYmd? year month day else none

end LintDebt.Date
