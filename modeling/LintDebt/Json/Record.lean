import LintDebt.Json.Basic

/-!
# Records in JSON

A record is written as an object whose members are its fields, or as an array of the fields in
their order.  Members of other names are left alone; a field given twice is an error.

* `LintDebt.Json.Field`: the names under which a field is found.
* `LintDebt.Json.fields?`: the values given for the fields of a record.
* `LintDebt.Json.required`, `orDefault`, `optional`: what a field that is not given means.
* `LintDebt.Json.string?`, `bool?`, `uint32?`, `list?`, `map?`: the values of simple types.
* `LintDebt.Json.unit?`: the name of a choice among plain names.
-/

namespace LintDebt.Json

/-! ## Fields -/

/-- A field of a record: its name, and another name it also answers to. -/
structure Field where
  /-- The name under which the field is written. -/
  name : String
  /-- A second name under which it is found. -/
  otherName : Option String := none

/-- Whether a member name means this field. -/
def Field.answersTo (f : Field) (name : String) : Bool :=
  f.name == name || f.otherName == some name

/-- The value that the members of an object give for a field; `none` when they give two. -/
def Field.lookup? (f : Field) (members : List (String × Json)) : Option (Option Json) :=
  match members.filter (f.answersTo ·.1) with
  | [] => some none
  | [member] => some (some member.2)
  | _ => none

/-- A list of fields from their names. -/
def fieldNames (names : List String) : List Field :=
  names.map fun name => ⟨name, none⟩

/-- The values given for the fields of a record, in the order of the fields. -/
def fields? (fields : List Field) : Json → Option (List (Option Json))
  | .obj members => fields.mapM (·.lookup? members)
  | .arr items =>
    if items.length ≤ fields.length then
      some (items.map some ++ List.replicate (fields.length - items.length) none)
    else none
  | _ => none

/-- A field that must be given. -/
def required {α : Type} (read : Json → Option α) (given : Option Json) : Option α :=
  given.bind read

/-- A field that has a default when it is not given. -/
def orDefault {α : Type} (default : α) (read : Json → Option α) : Option Json → Option α
  | none => some default
  | some j => read j

/-- A field that may be left out or be `null`. -/
def optional {α : Type} (read : Json → Option α) : Option Json → Option (Option α)
  | none => some none
  | some .null => some none
  | some j => (read j).map some

/-! ## Simple types -/

/-- A text. -/
def string? : Json → Option String
  | .str s => some s
  | _ => none

/-- A truth value. -/
def bool? : Json → Option Bool
  | .bool b => some b
  | _ => none

/-- A natural number below a bound. -/
def natBelow? (bound : Nat) : Json → Option Nat
  | .int i => if 0 ≤ i ∧ i < bound then some i.toNat else none
  | _ => none

/-- A number of 32 bits. -/
def uint32? (j : Json) : Option UInt32 :=
  (natBelow? UInt32.size j).map UInt32.ofNat

/-- A signed number of 32 bits. -/
def int32? : Json → Option Int
  | .int i => if Int32.minValue.toInt ≤ i ∧ i ≤ Int32.maxValue.toInt then some i else none
  | _ => none

/-- A list of values of one type. -/
def list? {α : Type} (read : Json → Option α) : Json → Option (List α)
  | .arr items => items.mapM read
  | _ => none

/-- An object that maps names to values of one type, with the members as written. -/
def map? {α : Type} (read : Json → Option α) : Json → Option (List (String × α))
  | .obj members => members.mapM fun (name, value) => (read value).map (name, ·)
  | _ => none

/-- The name of a choice among plain names: written as a text, or as the name of the only member
of an object, whose value is `null`. -/
def unit? : Json → Option String
  | .str name => some name
  | .obj [(name, .null)] => some name
  | _ => none

/-! ## Writing records -/

/-- A member that is written in any case. -/
def always (name : String) (value : Json) : List (String × Json) :=
  [(name, value)]

/-- A member that is written only when there is a value. -/
def whenSome {α : Type} (name : String) (write : α → Json) (value : Option α) :
    List (String × Json) :=
  match value with
  | some a => [(name, write a)]
  | none => []

/-- The value of a number of 32 bits. -/
def uint32 (n : UInt32) : Json :=
  .nat n.toNat

end LintDebt.Json
