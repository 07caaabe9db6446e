import LintDebt.Decay
import LintDebt.Text.Digits

/-!
# Writing decay policies in TOML

* `LintDebt.Toml.quoteKey`: a key as it stands in a header.
* `LintDebt.DecayPolicy.toToml`: the document of a policy, a table for each window.
-/

namespace LintDebt

namespace Toml

/-- Whether a character cannot stand in a text without an escape: every control character but the
tab. -/
def isControl (c : Char) : Bool :=
  (c.toNat < 32 && c != '\t') || c.toNat == 127

/-- How a character is written in a basic string. -/
def escapeChar (c : Char) : List Char :=
  if c = '"' then ['\\', '"']
  else if c = '\\' then ['\\', '\\']
  else if c = '\x08' then ['\\', 'b']
  else if c = '\t' then ['\\', 't']
  else if c = '\n' then ['\\', 'n']
  else if c = '\x0c' then ['\\', 'f']
  else if c = '\r' then ['\\', 'r']
  else if isControl c then
    let hex := (Nat.toDigits 16 c.toNat).map Char.toUpper
    '\\' :: 'u' :: (List.replicate (4 - hex.length) '0' ++ hex)
  else [c]

/-- Whether a key needs no quotes. -/
def isBareKey (key : List Char) : Bool :=
  !key.isEmpty && key.all fun c => c.isAlphanum || c == '_' || c == '-'

/-- A key as it stands in a header: bare if it can be, else in the quotes that need no escape, else
in double quotes with escapes. -/
def quoteKey (key : String) : String :=
  let chars := key.toList
  if isBareKey chars then key
  else if !chars.any (fun c => isControl c || c == '"' || c == '\\') then
    String.ofList ('"' :: (chars.flatMap escapeChar ++ ['"']))
  else if !chars.any (fun c => isControl c || c == '\'') then
    String.ofList ('\'' :: (chars ++ ['\'']))
  else String.ofList ('"' :: (chars.flatMap escapeChar ++ ['"']))

end Toml

/-- The lines of a window's sides. -/
def DecayWindow.toTomlLines (w : DecayWindow) : String :=
  (match w.warn with
    | some n => "warn = " ++ toString n.toNat ++ "\n"
    | none => "") ++
  (match w.error with
    | some n => "error = " ++ toString n.toNat ++ "\n"
    | none => "")

/-- The table of a window under its header. -/
def DecayWindow.toTomlTable (header : String) (w : DecayWindow) : String :=
  "[" ++ header ++ "]\n" ++ w.toTomlLines

/-- The document of a policy: a table for the general window and one for each rule that has a
window of its own, with an empty line between two tables. -/
def DecayPolicy.toToml (p : DecayPolicy) : String :=
  let general := p.window.toList.map (·.toTomlTable "days_to_decay")
  let byRule := p.byRule.map fun (rule, w) =>
    w.toTomlTable ("days_to_decay_by_rule." ++ Toml.quoteKey rule)
  "\n".intercalate (general ++ byRule)

end LintDebt
