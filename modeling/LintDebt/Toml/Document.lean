import LintDebt.Toml.Lexeme
import LintDebt.Toml.Table

/-!
# Reading TOML documents

* `LintDebt.Toml.value?`: a value of any kind.
* `LintDebt.Toml.Statement`: what a line of a document says.
* `LintDebt.Toml.parse?`: the table that a document denotes.
-/

namespace LintDebt.Toml

/-! ## Values -/

mutual

/-- Reads one value.  `depth` bounds how many arrays and inline tables may still be opened. -/
def value? : Nat → Nat → List Char → Option (Value × List Char)
  | 0, _, _ => none
  | fuel + 1, depth, s =>
    match s with
    | [] => none
    | c :: rest =>
      if c = '"' ∨ c = '\'' then (string? s).map fun (chars, rest) => (.string (String.ofList chars), rest)
      else if c = '[' then
        match depth with
        | 0 => none
        | depth + 1 => (items? fuel depth rest).map fun (items, rest) => (.array items, rest)
      else if c = '\x7b' then
        match depth with
        | 0 => none
        | depth + 1 => do
          let (assignments, rest) ← match skipBlank rest with
            | '\x7d' :: rest => some ([], rest)
            | rest => assignments? fuel depth rest
          let t ← Table.putAll? {} assignments
          some (t.toValue, rest)
      else if c = 't' then (word? "true".toList s).map (Value.boolean true, ·)
      else if c = 'f' then (word? "false".toList s).map (Value.boolean false, ·)
      else dateTime? s <|> float? s <|> integer? s

/-- Reads the items of an array and its closing bracket; a comma may follow the last item. -/
def items? : Nat → Nat → List Char → Option (List Value × List Char)
  | 0, _, _ => none
  | fuel + 1, depth, s => do
    match ← skipTrivia? false s with
    | ']' :: rest => some ([], rest)
    | s =>
      let (item, rest) ← value? fuel depth s
      match ← skipTrivia? false rest with
      | ']' :: rest => some ([item], rest)
      | ',' :: rest =>
        let (items, rest) ← items? fuel depth rest
        some (item :: items, rest)
      | _ => none

/-- Reads the keys and values of an inline table that has at least one, and its closing brace. -/
def assignments? : Nat → Nat → List Char → Option (List (List String × Value) × List Char)
  | 0, _, _ => none
  | fuel + 1, depth, s => do
    let (key, rest) ← key? s
    let rest ← char? '=' rest
    let (value, rest) ← value? fuel depth (skipBlank rest)
    match skipBlank rest with
    | '\x7d' :: rest => some ([(key, value)], rest)
    | ',' :: rest =>
      let (assignments, rest) ← assignments? fuel depth rest
      some ((key, value) :: assignments, rest)
    | _ => none

end

/-! ## Statements -/

/-- What a line of a document says. -/
inductive Statement where
  /-- The following values belong to a table. -/
  | header (path : List String)
  /-- The following values belong to a new table of an array. -/
  | arrayHeader (path : List String)
  /-- A key has a value. -/
  | assignment (path : List String) (value : Value)

/-- Reads a header or an assignment, with what may follow it on its line. -/
def statement? (s : List Char) : Option (Statement × List Char) :=
  match s with
  | '[' :: '[' :: rest => do
    let (path, rest) ← key? rest
    let rest ← char? ']' rest
    let rest ← char? ']' rest
    some (.arrayHeader path, ← lineEnd? rest)
  | '[' :: rest => do
    let (path, rest) ← key? rest
    let rest ← char? ']' rest
    some (.header path, ← lineEnd? rest)
  | _ => do
    let (path, rest) ← key? s
    let rest ← char? '=' rest
    let (value, rest) ← value? (2 * rest.length + 2) nestingLimit (skipBlank rest)
    some (.assignment path value, ← lineEnd? rest)

/-- Reads all statements of a document; lines that say nothing lie between them. -/
def statements? : Nat → List Char → Option (List Statement)
  | 0, _ => none
  | fuel + 1, s => do
    match skipBlank s with
    | [] => some []
    | '#' :: rest => statements? fuel (← lineEnd? ('#' :: rest))
    | '\n' :: rest => statements? fuel rest
    | '\r' :: rest => statements? fuel (← newline? ('\r' :: rest))
    | s =>
      let (statement, rest) ← statement? s
      let statements ← statements? fuel rest
      some (statement :: statements)

/-! ## Documents -/

/-- A header, if any, with the assignments that belong to it. -/
structure Section where
  header : Option Statement
  assignments : List (List String × Value)

/-- Groups statements by the header they stand under; the first group has none. -/
def sections : List Statement → List Section
  | [] => [⟨none, []⟩]
  | .assignment path value :: rest =>
    match sections rest with
    | [] => []
    | s :: more => { s with assignments := (path, value) :: s.assignments } :: more
  | header :: rest =>
    match sections rest with
    | [] => []
    | s :: more => ⟨none, []⟩ :: { s with header := some header } :: more

/-- Enters a group of statements into a document. -/
def Table.enter? (t : Table) (s : Section) : Option Table :=
  match s.header with
  | some (.header path) => t.define? path s.assignments
  | some (.arrayHeader path) => t.append? path s.assignments
  | _ => t.putAll? s.assignments

/-- The text without the mark that may stand at its start. -/
def dropMark (s : List Char) : List Char :=
  match s with
  | '\ufeff' :: rest => rest
  | _ => s

/-- The table that a document denotes. -/
def parse? (text : String) : Option Value := do
  let s := dropMark text.toList
  let statements ← statements? (s.length + 1) s
  let t ← (sections statements).foldlM Table.enter? {}
  some t.toValue

end LintDebt.Toml
