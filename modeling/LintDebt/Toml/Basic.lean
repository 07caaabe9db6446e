import LintDebt.Json.Basic

/-!
# TOML values

* `LintDebt.Toml.Value`: a value of a TOML document.
* `LintDebt.Toml.Value.toJson`: the value as a configuration reader sees it.
-/

namespace LintDebt.Toml

/-- A number with a fraction or an exponent, or one of the two names for what is no number. -/
inductive Number where
  | finite (negative : Bool) (coefficient : Nat) (exponent : Int)
  | infinite
  | nan
  deriving Repr

/-- A value of a TOML document. -/
inductive Value where
  | string (s : String)
  | integer (i : Int)
  | float (n : Number)
  | boolean (b : Bool)
  | dateTime (text : String)
  | array (items : List Value)
  | table (members : List (String × Value))
  deriving Inhabited, Repr

namespace Value

mutual

/-- The value as a configuration reader sees it.  A number that is not finite counts as nothing,
and a date or time is an object of its own that holds its text. -/
def toJson : Value → Json
  | .string s => .str s
  | .integer i => .int i
  | .float (.finite negative coefficient exponent) => .decimal negative coefficient exponent
  | .float _ => .null
  | .boolean b => .bool b
  | .dateTime text => .obj [("dateTime", .str text)]
  | .array items => .arr (itemsToJson items)
  | .table members => .obj (membersToJson members)

/-- The items of an array as a configuration reader sees them. -/
def itemsToJson : List Value → List Json
  | [] => []
  | item :: rest => toJson item :: itemsToJson rest

/-- The members of a table as a configuration reader sees them. -/
def membersToJson : List (String × Value) → List (String × Json)
  | [] => []
  | (name, value) :: rest => (name, toJson value) :: membersToJson rest

end

end Value

end LintDebt.Toml
