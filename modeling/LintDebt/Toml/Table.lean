import LintDebt.Toml.Basic

/-!
# Building TOML tables

A document names its tables in headers and in keys of several parts.  A table that a longer key
only passes through exists without having been defined, and may still be defined once by a header
of its own; a table made by a key of several parts may not.

* `LintDebt.Toml.Item`: a value, a table under construction, or an array of tables.
* `LintDebt.Toml.Table.descend?`: changes the table at the end of a path.
* `LintDebt.Toml.Table.put?`: sets the value of a key.
* `LintDebt.Toml.Table.define?`, `append?`: opens the table of a header.
-/

namespace LintDebt.Toml

/-- What a key of a table under construction stands for.  A table is `implicit` while no header
has defined it, and `dotted` when a key of several parts has made it; the tables of an array are
neither. -/
inductive Item where
  | value (v : Value)
  | table (implicit dotted : Bool) (entries : List (String × Item))
  | tables (elements : List (List (String × Item)))
  deriving Inhabited

/-- A table under construction. -/
structure Table where
  /-- Whether no header has defined the table yet. -/
  implicit : Bool := false
  /-- Whether a key of several parts has made the table. -/
  dotted : Bool := false
  /-- What its keys stand for, in the order in which they came. -/
  entries : List (String × Item) := []

namespace Table

/-- A table as the item of a key. -/
def toItem (t : Table) : Item :=
  .table t.implicit t.dotted t.entries

/-- What a key stands for. -/
def find? (t : Table) (key : String) : Option Item :=
  (t.entries.find? (·.1 == key)).map (·.2)

/-- Sets what a key stands for; a new key comes last. -/
def set (t : Table) (key : String) (item : Item) : Table :=
  if t.entries.any (·.1 == key) then
    { t with entries := t.entries.map fun (k, i) => if k == key then (k, item) else (k, i) }
  else { t with entries := t.entries ++ [(key, item)] }

/-- Changes the table at the end of a path.  Tables on the way are made when they are missing;
behind an array of tables the way goes on in its last table.  With `dotted` the path belongs to
the key of a value, and must not lead through a table that a header has defined. -/
def descend? (dotted : Bool) (change : Table → Option Table) : List String → Table → Option Table
  | [], t => change t
  | key :: path, t =>
    match t.find? key with
    | none => do
      let child ← descend? dotted change path { implicit := true, dotted }
      some (t.set key child.toItem)
    | some (.value _) => none
    | some (.table implicit childDotted entries) =>
      if dotted && !implicit then none
      else do
        let child ← descend? dotted change path { implicit, dotted := childDotted, entries }
        some (t.set key child.toItem)
    | some (.tables elements) =>
      match elements.getLast? with
      | none => none
      | some last => do
        let child ← descend? dotted change path { entries := last }
        some (t.set key (.tables (elements.dropLast ++ [child.entries])))

/-- Sets the value of a key that is not set yet.  A key of one part belongs to the table as it
stands, a key of several parts to a table made by such a key. -/
def put? (t : Table) (path : List String) (value : Value) : Option Table :=
  match path.getLast? with
  | none => none
  | some key =>
    let way := path.dropLast
    descend? true (fun t =>
      if t.dotted == way.isEmpty || (t.find? key).isSome then none
      else some (t.set key (.value value))) way t

/-- Sets the values of several keys, in order. -/
def putAll? (t : Table) (assignments : List (List String × Value)) : Option Table :=
  assignments.foldlM (fun t (path, value) => t.put? path value) t

/-- Defines the table of a header and sets its values. -/
def define? (t : Table) (path : List String) (assignments : List (List String × Value)) :
    Option Table :=
  match path.getLast? with
  | none => none
  | some key =>
    descend? false (fun t => do
      let entries ← match t.find? key with
        | none => some []
        | some (.table true false entries) => some entries
        | some _ => none
      let child ← putAll? { entries } assignments
      some (t.set key child.toItem)) path.dropLast t

/-- Adds a table to the array of a header and sets its values. -/
def append? (t : Table) (path : List String) (assignments : List (List String × Value)) :
    Option Table :=
  match path.getLast? with
  | none => none
  | some key =>
    descend? false (fun t => do
      let elements ← match t.find? key with
        | none => some []
        | some (.tables elements) => some elements
        | some _ => none
      let child ← putAll? {} assignments
      some (t.set key (.tables (elements ++ [child.entries])))) path.dropLast t

end Table

mutual

/-- The value of an item. -/
def Item.toValue : Item → Value
  | .value v => v
  | .table _ _ entries => .table (entriesToValues entries)
  | .tables elements => .array (elementsToValues elements)

/-- The members of a finished table. -/
def entriesToValues : List (String × Item) → List (String × Value)
  | [] => []
  | (key, item) :: rest => (key, item.toValue) :: entriesToValues rest

/-- The items of a finished array of tables. -/
def elementsToValues : List (List (String × Item)) → List Value
  | [] => []
  | entries :: rest => .table (entriesToValues entries) :: elementsToValues rest

end

/-- The value of a finished table. -/
def Table.toValue (t : Table) : Value :=
  t.toItem.toValue

end LintDebt.Toml
