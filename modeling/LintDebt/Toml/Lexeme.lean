import LintDebt.Date.Basic
import LintDebt.Text.Digits
import LintDebt.Toml.Basic

/-!
# The words of TOML

Each reader takes one kind of word off the front of a text, and answers what it denotes together
with the rest.

* `LintDebt.Toml.skipBlank`, `newline?`, `lineEnd?`, `skipTrivia?`: what stands between words.
* `LintDebt.Toml.string?`: a string in any of the four kinds of quotes.
* `LintDebt.Toml.key?`: a key, of one part or several.
* `LintDebt.Toml.dateTime?`, `float?`, `integer?`: dates, times and numbers.
-/

namespace LintDebt.Toml

open LintDebt.Text (hexNumber? isScalar digitsValue)

/-! ## Between words -/

/-- The two characters that may stand between the words of a line. -/
def isBlank (c : Char) : Bool :=
  c == ' ' || c == '\t'

/-- The text after its leading spaces and tabs. -/
def skipBlank (s : List Char) : List Char :=
  s.dropWhile isBlank

/-- Takes a line ending off the front of a text. -/
def newline? : List Char → Option (List Char)
  | '\n' :: rest => some rest
  | '\r' :: '\n' :: rest => some rest
  | _ => none

/-- Whether a character may stand in a comment, or unescaped in a string: no control character
but the tab. -/
def isPlain (c : Char) : Bool :=
  c == '\t' || (' ' ≤ c && c != '\x7f')

/-- Takes what may follow the last word of a line off the front of a text: spaces, a comment, and
the line ending or the end of the text. -/
def lineEnd? (s : List Char) : Option (List Char) :=
  let s := skipBlank s
  let s := match s with
    | '#' :: rest => rest.dropWhile isPlain
    | _ => s
  if s.isEmpty then some [] else newline? s

/-- Takes spaces, line endings and comments off the front of a text. -/
def skipTrivia? (inComment : Bool) : List Char → Option (List Char)
  | [] => some []
  | '\n' :: rest => skipTrivia? false rest
  | '\r' :: '\n' :: rest => skipTrivia? false rest
  | c :: rest =>
    if inComment then if isPlain c then skipTrivia? true rest else none
    else if c = '#' then skipTrivia? true rest
    else if isBlank c then skipTrivia? false rest
    else some (c :: rest)

/-! ## Strings -/

/-- The character that a backslash and this character denote together. -/
def simpleEscape? (c : Char) : Option Char :=
  match c with
  | 'b' => some '\x08'
  | 't' => some '\t'
  | 'n' => some '\n'
  | 'f' => some '\x0c'
  | 'r' => some '\r'
  | '"' => some '"'
  | '\\' => some '\\'
  | _ => none

/-- The character with a code point in hexadecimal digits. -/
def charOfHex? (digits : List Char) : Option Char :=
  (hexNumber? 0 digits).bind fun n => if isScalar n then some (Char.ofNat n) else none

/-- Puts a character in front of what a reader has read. -/
def consTo (c : Char) (read : Option (List Char × List Char)) : Option (List Char × List Char) :=
  read.map fun (chars, rest) => (c :: chars, rest)

/-- Reads a basic string from behind its opening quote. -/
def basic? : List Char → Option (List Char × List Char)
  | [] => none
  | '"' :: rest => some ([], rest)
  | '\\' :: 'u' :: a :: b :: c :: d :: rest => do
    consTo (← charOfHex? [a, b, c, d]) (basic? rest)
  | '\\' :: 'U' :: a :: b :: c :: d :: e :: f :: g :: h :: rest => do
    consTo (← charOfHex? [a, b, c, d, e, f, g, h]) (basic? rest)
  | '\\' :: c :: rest => do consTo (← simpleEscape? c) (basic? rest)
  | c :: rest => if isPlain c && c != '\\' then consTo c (basic? rest) else none

/-- Reads a literal string from behind its opening quote. -/
def literal? : List Char → Option (List Char × List Char)
  | [] => none
  | '\'' :: rest => some ([], rest)
  | c :: rest => if isPlain c then consTo c (literal? rest) else none

/-- Reads a basic string over several lines from behind its opening quotes.  Up to two quotes may
stand right before the closing ones.  While `trimming`, spaces and line endings are left out, as
they are behind a backslash at the end of a line. -/
def multilineBasic? (trimming : Bool) : List Char → Option (List Char × List Char)
  | [] => none
  | '"' :: '"' :: '"' :: '"' :: '"' :: rest => some (['"', '"'], rest)
  | '"' :: '"' :: '"' :: '"' :: rest => some (['"'], rest)
  | '"' :: '"' :: '"' :: rest => some ([], rest)
  | '\\' :: 'u' :: a :: b :: c :: d :: rest => do
    consTo (← charOfHex? [a, b, c, d]) (multilineBasic? false rest)
  | '\\' :: 'U' :: a :: b :: c :: d :: e :: f :: g :: h :: rest => do
    consTo (← charOfHex? [a, b, c, d, e, f, g, h]) (multilineBasic? false rest)
  | '\\' :: c :: rest =>
    if isBlank c || c == '\n' || c == '\r' then
      if (newline? (skipBlank (c :: rest))).isSome then multilineBasic? true (c :: rest) else none
    else do consTo (← simpleEscape? c) (multilineBasic? false rest)
  | '\n' :: rest =>
    if trimming then multilineBasic? true rest else consTo '\n' (multilineBasic? false rest)
  | '\r' :: '\n' :: rest =>
    if trimming then multilineBasic? true rest else consTo '\n' (multilineBasic? false rest)
  | c :: rest =>
    if trimming && isBlank c then multilineBasic? true rest
    else if isPlain c && c != '\\' then consTo c (multilineBasic? false rest)
    else none

/-- Reads a literal string over several lines from behind its opening quotes. -/
def multilineLiteral? : List Char → Option (List Char × List Char)
  | [] => none
  | '\'' :: '\'' :: '\'' :: '\'' :: '\'' :: rest => some (['\'', '\''], rest)
  | '\'' :: '\'' :: '\'' :: '\'' :: rest => some (['\''], rest)
  | '\'' :: '\'' :: '\'' :: rest => some ([], rest)
  | '\n' :: rest => consTo '\n' (multilineLiteral? rest)
  | '\r' :: '\n' :: rest => consTo '\n' (multilineLiteral? rest)
  | c :: rest => if isPlain c then consTo c (multilineLiteral? rest) else none

/-- The text behind a line ending, if it starts with one. -/
def dropNewline (s : List Char) : List Char :=
  (newline? s).getD s

/-- Reads a string of any kind. -/
def string? : List Char → Option (List Char × List Char)
  | '"' :: '"' :: '"' :: rest => multilineBasic? false (dropNewline rest)
  | '"' :: rest => basic? rest
  | '\'' :: '\'' :: '\'' :: rest => multilineLiteral? (dropNewline rest)
  | '\'' :: rest => literal? rest
  | _ => none

/-! ## Keys -/

/-- Whether a character may stand in a key without quotes. -/
def isBareKeyChar (c : Char) : Bool :=
  c.isAlphanum || c == '_' || c == '-'

/-- Reads one part of a key. -/
def keyPart? (s : List Char) : Option (String × List Char) :=
  match s with
  | '"' :: rest => (basic? rest).map fun (chars, rest) => (String.ofList chars, rest)
  | '\'' :: rest => (literal? rest).map fun (chars, rest) => (String.ofList chars, rest)
  | _ =>
    let bare := s.takeWhile isBareKeyChar
    if bare.isEmpty then none else some (String.ofList bare, s.dropWhile isBareKeyChar)

/-- Reads a key of at most the given number of parts, with the spaces around each part. -/
def keyParts? : Nat → List Char → Option (List String × List Char)
  | 0, _ => none
  | most + 1, s => do
    let (part, rest) ← keyPart? (skipBlank s)
    match skipBlank rest with
    | '.' :: rest =>
      let (parts, rest) ← keyParts? most rest
      some (part :: parts, rest)
    | rest => some ([part], rest)

/-- How many parts a key may have, and how deeply arrays and inline tables may nest. -/
def nestingLimit : Nat := 79

/-- Reads a key. -/
def key? (s : List Char) : Option (List String × List Char) :=
  keyParts? nestingLimit s

/-! ## Dates and times -/

/-- Reads a number of exactly `width` digits. -/
def fixedDigits? (width : Nat) (s : List Char) : Option (Nat × List Char) :=
  let digits := s.take width
  if digits.length = width ∧ digits.all Char.isDigit then some (digitsValue digits, s.drop width)
  else none

/-- Reads a number of two digits within bounds. -/
def twoDigits? (least most : Nat) (s : List Char) : Option (Nat × List Char) :=
  (fixedDigits? 2 s).filter fun (n, _) => decide (least ≤ n ∧ n ≤ most)

/-- Takes one given character off the front of a text. -/
def char? (c : Char) : List Char → Option (List Char)
  | [] => none
  | d :: rest => if c = d then some rest else none

/-- Takes a date off the front of a text. -/
def date? (s : List Char) : Option (List Char) := do
  let (year, s) ← fixedDigits? 4 s
  let s ← char? '-' s
  let (month, s) ← twoDigits? 1 12 s
  let s ← char? '-' s
  let (day, s) ← twoDigits? 1 31 s
  let length ← Calendar.monthLength? (Calendar.isLeap year) month
  if day ≤ length then some s else none

/-- Takes a time of day off the front of a text; a second may be a leap second, and may have a
fraction. -/
def time? (s : List Char) : Option (List Char) := do
  let (_, s) ← twoDigits? 0 23 s
  let s ← char? ':' s
  let (_, s) ← twoDigits? 0 59 s
  let s ← char? ':' s
  let (_, s) ← twoDigits? 0 60 s
  match s with
  | '.' :: rest =>
    let (digits, rest) := Text.takeDigits rest
    if digits.isEmpty then none else some rest
  | _ => some s

/-- Takes an offset from universal time off the front of a text. -/
def offset? : List Char → Option (List Char)
  | [] => none
  | c :: rest =>
    if c = 'Z' ∨ c = 'z' then some rest
    else if c = '+' ∨ c = '-' then do
      let (_, s) ← twoDigits? 0 23 rest
      let s ← char? ':' s
      let (_, s) ← twoDigits? 0 59 s
      some s
    else none

/-- Takes the time behind a date off the front of a text, with its offset if it has one. -/
def timeOfDate? : List Char → Option (List Char)
  | [] => none
  | c :: rest =>
    if c = 'T' ∨ c = 't' ∨ c = ' ' then (time? rest).map fun s => (offset? s).getD s
    else none

/-- Reads a date, a time, or both. -/
def dateTime? (s : List Char) : Option (Value × List Char) :=
  let rest? := match date? s with
    | some rest => some ((timeOfDate? rest).getD rest)
    | none => time? s
  rest?.map fun rest => (.dateTime (String.ofList (s.take (s.length - rest.length))), rest)

/-! ## Numbers -/

/-- Takes digits off the front of a text; an underscore between two digits is left out. -/
def spacedDigits (isDigit : Char → Bool) : List Char → List Char × List Char
  | c :: '_' :: d :: rest =>
    if !isDigit c then ([], c :: '_' :: d :: rest)
    else if isDigit d then
      let (digits, rest) := spacedDigits isDigit (d :: rest)
      (c :: digits, rest)
    else ([c], '_' :: d :: rest)
  | c :: rest =>
    if isDigit c then
      let (digits, rest) := spacedDigits isDigit rest
      (c :: digits, rest)
    else ([], c :: rest)
  | [] => ([], [])

/-- Reads a sign, if there is one. -/
def sign (s : List Char) : Bool × List Char :=
  match s with
  | '-' :: rest => (true, rest)
  | '+' :: rest => (false, rest)
  | _ => (false, s)

/-- Reads the digits of a whole number: a zero alone, or digits that do not start with one. -/
def wholeDigits? (s : List Char) : Option (List Char × List Char) :=
  match s with
  | '0' :: rest => some (['0'], rest)
  | _ =>
    let (digits, rest) := spacedDigits Char.isDigit s
    if digits.isEmpty then none else some (digits, rest)

/-- Reads the digits behind a decimal point. -/
def fraction? (s : List Char) : Option (List Char × List Char) :=
  match s with
  | '.' :: rest =>
    let (digits, rest) := spacedDigits Char.isDigit rest
    if digits.isEmpty then none else some (digits, rest)
  | _ => none

/-- Reads an exponent with its letter. -/
def exponent? (s : List Char) : Option (Int × List Char) :=
  match s with
  | [] => none
  | c :: rest =>
    if c = 'e' ∨ c = 'E' then
      let (negative, s) := sign rest
      let (digits, rest) := spacedDigits Char.isDigit s
      if digits.isEmpty then none
      else
        let n : Int := digitsValue digits
        some (if negative then -n else n, rest)
    else none

/-- The number of the given parts.  A positive number that is too large is refused, a negative one
counts as infinite. -/
def numberOfParts? (negative : Bool) (coefficient : Nat) (exponent : Int) : Option Number :=
  if Json.overflows coefficient exponent then if negative then some .infinite else none
  else some (.finite negative coefficient exponent)

/-- Takes a name off the front of a text. -/
def word? (expected : List Char) (s : List Char) : Option (List Char) :=
  if s.take expected.length = expected then some (s.drop expected.length) else none

/-- Reads one of the names for what is no number. -/
def specialFloat? (s : List Char) : Option (Value × List Char) :=
  let (_, s) := sign s
  match word? "inf".toList s with
  | some rest => some (.float .infinite, rest)
  | none => (word? "nan".toList s).map fun rest => (.float .nan, rest)

/-- Reads a number that has a fraction, an exponent, or both. -/
def decimalFloat? (s : List Char) : Option (Value × List Char) := do
  let (negative, s) := sign s
  let (whole, s) ← wholeDigits? s
  let (fraction, s') := (fraction? s).getD ([], s)
  let (exponent, rest) := (exponent? s').getD (0, s')
  if rest.length = s.length then none
  else
    let number ← numberOfParts? negative (digitsValue (whole ++ fraction))
      (exponent - fraction.length)
    some (.float number, rest)

/-- Reads a number that is not whole. -/
def float? (s : List Char) : Option (Value × List Char) :=
  decimalFloat? s <|> specialFloat? s

/-- The value of a digit in some base up to sixteen. -/
def baseDigit? (base : Nat) (c : Char) : Option Nat :=
  (Text.hexValue? c).filter (· < base)

/-- Reads a whole number in another base, from behind the letter of the base. -/
def basedInteger? (base : Nat) (s : List Char) : Option (Int × List Char) :=
  let (digits, rest) := spacedDigits (fun c => (baseDigit? base c).isSome) s
  if digits.isEmpty then none
  else some (digits.foldl (fun n c => base * n + (baseDigit? base c).getD 0) 0, rest)

/-- Reads a whole number in decimal digits. -/
def decimalInteger? (s : List Char) : Option (Int × List Char) := do
  let (negative, s) := sign s
  let (digits, rest) ← wholeDigits? s
  let n : Int := digitsValue digits
  some (if negative then -n else n, rest)

/-- Reads a whole number; it must fit into 64 bits with a sign. -/
def integer? (s : List Char) : Option (Value × List Char) := do
  let (i, rest) ← match s with
    | '0' :: 'x' :: rest => basedInteger? 16 rest
    | '0' :: 'o' :: rest => basedInteger? 8 rest
    | '0' :: 'b' :: rest => basedInteger? 2 rest
    | _ => decimalInteger? s
  if Int64.minValue.toInt ≤ i ∧ i ≤ Int64.maxValue.toInt then some (.integer i, rest) else none

end LintDebt.Toml
