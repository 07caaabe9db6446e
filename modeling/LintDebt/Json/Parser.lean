import LintDebt.Json.Basic
import LintDebt.Text.Digits

/-!
# Reading JSON text

The reader takes a text apart from the left; each function answers what it read together with the
rest of the text.  It is lenient where a reader may be: escapes that name half of a surrogate pair,
numbers of any size and any nesting are read, and `Json.isStrict` tells a strict reader of them.

* `LintDebt.Json.skipSpace`: the text after its leading space.
* `LintDebt.Json.scanString`: the pieces of a string up to its closing quote.
* `LintDebt.Json.pairUp`: the characters that the pieces of a string denote.
* `LintDebt.Json.number?`: a number.
* `LintDebt.Json.value?`: a value of any kind.
* `LintDebt.Json.parse?`: the value that a whole text denotes.
-/

namespace LintDebt.Json

open LintDebt.Text (takeDigits digitsValue hexNumber?)

/-! ## Space -/

/-- The four characters that may stand between the parts of a JSON text. -/
def isSpace (c : Char) : Bool :=
  c == ' ' || c == '\t' || c == '\n' || c == '\r'

/-- The text after its leading space. -/
def skipSpace (s : List Char) : List Char :=
  s.dropWhile isSpace

/-! ## Strings -/

/-- A piece of a string: a character, or one half of a surrogate pair written as an escape. -/
inductive Piece where
  | char (c : Char)
  | half (unit : Nat)

/-- Whether a code unit is the first half of a surrogate pair. -/
def isHighHalf (unit : Nat) : Bool :=
  0xD800 ≤ unit && unit < 0xDC00

/-- Whether a code unit is the second half of a surrogate pair. -/
def isLowHalf (unit : Nat) : Bool :=
  0xDC00 ≤ unit && unit < 0xE000

/-- The piece that an escape of four hexadecimal digits denotes. -/
def pieceOfUnit (unit : Nat) : Piece :=
  if isHighHalf unit || isLowHalf unit then .half unit else .char (Char.ofNat unit)

/-- The character that a backslash and this character denote together. -/
def simpleEscape? (c : Char) : Option Char :=
  match c with
  | '"' => some '"'
  | '\\' => some '\\'
  | '/' => some '/'
  | 'b' => some '\x08'
  | 'f' => some '\x0c'
  | 'n' => some '\n'
  | 'r' => some '\r'
  | 't' => some '\t'
  | _ => none

/-- Reads a string from behind its opening quote to its closing quote.  Control characters may
not stand in it unescaped. -/
def scanString : List Char → Option (List Piece × List Char)
  | [] => none
  | '"' :: rest => some ([], rest)
  | '\\' :: 'u' :: a :: b :: c :: d :: rest => do
    let unit ← hexNumber? 0 [a, b, c, d]
    let (pieces, rest) ← scanString rest
    some (pieceOfUnit unit :: pieces, rest)
  | '\\' :: c :: rest => do
    let char ← simpleEscape? c
    let (pieces, rest) ← scanString rest
    some (.char char :: pieces, rest)
  | c :: rest =>
    if c < ' ' || c == '\\' then none
    else do
      let (pieces, rest) ← scanString rest
      some (.char c :: pieces, rest)

/-- The characters that the pieces denote: a first half right before a second half is one
character, and any other half makes the string illegible. -/
def pairUp : List Piece → Option (List Char)
  | [] => some []
  | .char c :: rest => (pairUp rest).map (c :: ·)
  | .half high :: .half low :: rest =>
    if isHighHalf high && isLowHalf low then
      (pairUp rest).map (Char.ofNat (0x10000 + (high - 0xD800) * 0x400 + (low - 0xDC00)) :: ·)
    else none
  | .half _ :: _ => none

/-! ## Numbers -/

/-- Reads the digits behind a decimal point, if there is one: none when the point stands alone. -/
def fraction? (s : List Char) : Option (List Char × List Char) :=
  match s with
  | '.' :: rest =>
    let (digits, rest) := takeDigits rest
    if digits.isEmpty then none else some (digits, rest)
  | _ => some ([], s)

/-- Reads an exponent behind its letter, with or without a sign. -/
def signedDigits? (s : List Char) : Option (Int × List Char) :=
  let (negative, s) := match s with
    | '-' :: rest => (true, rest)
    | '+' :: rest => (false, rest)
    | _ => (false, s)
  let (digits, rest) := takeDigits s
  if digits.isEmpty then none
  else
    let n : Int := digitsValue digits
    some (if negative then -n else n, rest)

/-- Reads an exponent, if there is one. -/
def exponent? (s : List Char) : Option (Option Int × List Char) :=
  match s with
  | 'e' :: rest => (signedDigits? rest).map fun (n, rest) => (some n, rest)
  | 'E' :: rest => (signedDigits? rest).map fun (n, rest) => (some n, rest)
  | _ => some (none, s)

/-- The digits before the decimal point: a zero alone, or digits that do not start with one. -/
def wholeDigits? (s : List Char) : Option (List Char × List Char) :=
  match s with
  | '0' :: rest => some (['0'], rest)
  | _ =>
    let (digits, rest) := takeDigits s
    if digits.isEmpty then none else some (digits, rest)

/-- The value of a number from its parts. -/
def numberOfParts (negative : Bool) (whole fraction : List Char) (exponent : Option Int) : Json :=
  let coefficient := digitsValue (whole ++ fraction)
  if fraction.isEmpty && exponent.isNone && !(negative && coefficient == 0) then
    .int (if negative then -coefficient else coefficient)
  else
    .decimal negative coefficient (exponent.getD 0 - fraction.length)

/-- Reads a number. -/
def number? (s : List Char) : Option (Json × List Char) := do
  let (negative, s) := match s with
    | '-' :: rest => (true, rest)
    | _ => (false, s)
  let (whole, s) ← wholeDigits? s
  let (fraction, s) ← fraction? s
  let (exponent, s) ← exponent? s
  some (numberOfParts negative whole fraction exponent, s)

/-! ## Values -/

/-- Takes the given characters off the front of a text. -/
def expect? : List Char → List Char → Option (List Char)
  | [], s => some s
  | _ :: _, [] => none
  | e :: expected, c :: rest => if e = c then expect? expected rest else none

/-- A string value from its pieces. -/
def strOfPieces (pieces : List Piece) : Json :=
  match pairUp pieces with
  | some chars => .str (String.ofList chars)
  | none => .illegible

/-- An object one of whose member names is illegible is illegible as a whole. -/
def objOfMembers (members : List (Option String × Json)) : Json :=
  match members.mapM fun (name, value) => name.map (·, value) with
  | some members => .obj members
  | none => .illegible

mutual

/-- Reads one value; the text starts with it, without space. -/
def value? : Nat → List Char → Option (Json × List Char)
  | 0, _ => none
  | fuel + 1, s =>
    match s with
    | 'n' :: rest => (expect? "ull".toList rest).map (Json.null, ·)
    | 't' :: rest => (expect? "rue".toList rest).map (Json.bool true, ·)
    | 'f' :: rest => (expect? "alse".toList rest).map (Json.bool false, ·)
    | '"' :: rest => (scanString rest).map fun (pieces, rest) => (strOfPieces pieces, rest)
    | '[' :: rest =>
      match skipSpace rest with
      | ']' :: rest => some (.arr [], rest)
      | rest => (items? fuel rest).map fun (items, rest) => (.arr items, rest)
    | '\x7b' :: rest =>
      match skipSpace rest with
      | '\x7d' :: rest => some (.obj [], rest)
      | rest => (members? fuel rest).map fun (members, rest) => (objOfMembers members, rest)
    | _ => number? s

/-- Reads the items of an array that has at least one, and its closing bracket. -/
def items? : Nat → List Char → Option (List Json × List Char)
  | 0, _ => none
  | fuel + 1, s => do
    let (item, rest) ← value? fuel s
    match skipSpace rest with
    | ']' :: rest => some ([item], rest)
    | ',' :: rest =>
      let (items, rest) ← items? fuel (skipSpace rest)
      some (item :: items, rest)
    | _ => none

/-- Reads the members of an object that has at least one, and its closing brace. -/
def members? : Nat → List Char → Option (List (Option String × Json) × List Char)
  | 0, _ => none
  | fuel + 1, s => do
    let '"' :: rest := s | none
    let (pieces, rest) ← scanString rest
    let ':' :: rest := skipSpace rest | none
    let (value, rest) ← value? fuel (skipSpace rest)
    let member := ((pairUp pieces).map String.ofList, value)
    match skipSpace rest with
    | '\x7d' :: rest => some ([member], rest)
    | ',' :: rest =>
      let (members, rest) ← members? fuel (skipSpace rest)
      some (member :: members, rest)
    | _ => none

end

/-- Enough fuel for a text: a value and a list of values each take one step, and every two steps
take a character off the text. -/
def enoughFuel (s : List Char) : Nat :=
  2 * s.length + 2

/-- The value that a text denotes, read leniently: nothing but space may stand around it. -/
def parse? (text : String) : Option Json := do
  let s := skipSpace text.toList
  let (value, rest) ← value? (enoughFuel s) s
  if (skipSpace rest).isEmpty then some value else none

/-- The value that a text denotes, read strictly. -/
def parseStrict? (text : String) : Option Json :=
  (parse? text).filter isStrict

end LintDebt.Json
