import LintDebt.Json.Basic
import LintDebt.Text.Digits

/-!
# Writing JSON text

* `LintDebt.Json.escape`: a text as it stands between the quotes of a string.
* `LintDebt.Json.compact`: a value on one line, without space.
* `LintDebt.Json.pretty`: a value over several lines, each level two spaces further in.
-/

namespace LintDebt.Json

open LintDebt.Text (decimalDigits hexDigit)

/-! ## Leaves -/

/-- How a character is written in a string: quotes, backslashes and control characters are
escaped, by a letter where one is defined. -/
def escapeChar (c : Char) : List Char :=
  if c = '"' then ['\\', '"']
  else if c = '\\' then ['\\', '\\']
  else if c = '\n' then ['\\', 'n']
  else if c = '\r' then ['\\', 'r']
  else if c = '\t' then ['\\', 't']
  else if c = '\x08' then ['\\', 'b']
  else if c = '\x0c' then ['\\', 'f']
  else if c.toNat < 32 then
    ['\\', 'u', '0', '0', hexDigit (c.toNat / 16), hexDigit (c.toNat % 16)]
  else [c]

/-- A text as it stands between the quotes of a string. -/
def escape (s : List Char) : List Char :=
  s.flatMap escapeChar

/-- A text in quotes. -/
def quote (s : String) : List Char :=
  '"' :: (escape s.toList ++ ['"'])

/-- A whole number, with a minus sign when it is negative. -/
def integer (i : Int) : List Char :=
  if i < 0 then '-' :: decimalDigits i.natAbs else decimalDigits i.natAbs

/-! ## Compact text -/

mutual

/-- The characters of a value on one line. -/
def render : Json → List Char
  | .null => "null".toList
  | .bool true => "true".toList
  | .bool false => "false".toList
  | .int i => integer i
  | .decimal negative coefficient exponent =>
    (if negative then ['-'] else []) ++ decimalDigits coefficient ++ 'e' :: integer exponent
  | .str s => quote s
  | .arr items => '[' :: (renderItems items ++ [']'])
  | .obj members => '\x7b' :: (renderMembers members ++ ['\x7d'])
  | .illegible => "null".toList

/-- The items of an array, separated by commas. -/
def renderItems : List Json → List Char
  | [] => []
  | [item] => render item
  | item :: rest => render item ++ ',' :: renderItems rest

/-- The members of an object, separated by commas. -/
def renderMembers : List (String × Json) → List Char
  | [] => []
  | [(name, value)] => quote name ++ ':' :: render value
  | (name, value) :: rest => quote name ++ ':' :: (render value ++ ',' :: renderMembers rest)

end

/-- A value on one line, without space. -/
def compact (j : Json) : String :=
  String.ofList (render j)

/-! ## Indented text -/

/-- A line feed and the indentation of a level. -/
def newline (level : Nat) : List Char :=
  '\n' :: List.replicate (2 * level) ' '

mutual

/-- The characters of a value whose parts stand on lines of their own, one level further in. -/
def renderAt (level : Nat) : Json → List Char
  | .arr [] => ['[', ']']
  | .arr items => '[' :: (renderItemsAt (level + 1) items ++ newline level ++ [']'])
  | .obj [] => ['\x7b', '\x7d']
  | .obj members => '\x7b' :: (renderMembersAt (level + 1) members ++ newline level ++ ['\x7d'])
  | .null => render .null
  | .bool b => render (.bool b)
  | .int i => render (.int i)
  | .decimal negative coefficient exponent => render (.decimal negative coefficient exponent)
  | .str s => render (.str s)
  | .illegible => render .illegible

/-- The items of an array, each on a line of its own. -/
def renderItemsAt (level : Nat) : List Json → List Char
  | [] => []
  | [item] => newline level ++ renderAt level item
  | item :: rest => newline level ++ renderAt level item ++ ',' :: renderItemsAt level rest

/-- The members of an object, each on a line of its own. -/
def renderMembersAt (level : Nat) : List (String × Json) → List Char
  | [] => []
  | [(name, value)] => newline level ++ quote name ++ ':' :: ' ' :: renderAt level value
  | (name, value) :: rest =>
    newline level ++ quote name ++ ':' :: ' ' :: (renderAt level value ++
      ',' :: renderMembersAt level rest)

end

/-- A value over several lines, each level two spaces further in. -/
def pretty (j : Json) : String :=
  String.ofList (renderAt 0 j)

end LintDebt.Json
