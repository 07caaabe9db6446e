import LintDebt.Path

/-!
# File trees

The files that a ledger and its surroundings consist of, as a value.

* `LintDebt.Contents`: what a file holds, text or bytes that are no text.
* `LintDebt.FileNode`: a file or a directory.
* `LintDebt.FileTree`: all files, seen from a working directory.
* `LintDebt.FileTree.isFile`, `readText?`, `write?`, `append?`: the operations on files.
-/

namespace LintDebt

/-- What a file holds.  Bytes that are valid UTF-8 count as text. -/
inductive Contents where
  | text (s : String)
  | binary (bytes : List UInt8)
  deriving DecidableEq, Repr

namespace Contents

/-- What a file with the given bytes holds. -/
def ofBytes (bytes : List UInt8) : Contents :=
  match String.fromUTF8? ⟨bytes.toArray⟩ with
  | some s => .text s
  | none => .binary bytes

/-- The text of a file that holds text. -/
def text? : Contents → Option String
  | .text s => some s
  | .binary _ => none

/-- What a file holds after a text was added to its end.  Text does not complete a sequence of
bytes that was left open. -/
def append (c : Contents) (s : String) : Contents :=
  match c with
  | .text t => .text (t ++ s)
  | .binary bytes => .binary (bytes ++ s.toUTF8.toList)

end Contents

/-- A file or a directory. -/
inductive FileNode where
  | file (contents : Contents)
  | directory (entries : List (String × FileNode))
  deriving Inhabited

namespace FileNode

/-- The entry of a name in the entries of a directory. -/
def child? (entries : List (String × FileNode)) (name : String) : Option FileNode :=
  (entries.find? (·.1 == name)).map (·.2)

/-- The entries of a directory with one entry set. -/
def setEntry (entries : List (String × FileNode)) (name : String) (node : FileNode) :
    List (String × FileNode) :=
  if entries.any (·.1 == name) then
    entries.map fun (n, old) => if n == name then (n, node) else (n, old)
  else entries ++ [(name, node)]

/-- The node at the end of a way from name to name. -/
def lookup? : List String → FileNode → Option FileNode
  | [], node => some node
  | _ :: _, .file _ => none
  | name :: way, .directory entries => (child? entries name).bind (lookup? way)

/-- Whether a node is a directory. -/
def isDirectory : FileNode → Bool
  | .directory _ => true
  | .file _ => false

/-- The tree in which a file at the end of a way holds what `change` makes of what it held; the
directories on the way must exist, and no directory may stand in the place of the file. -/
def update? (change : Option Contents → Contents) : List String → FileNode → Option FileNode
  | _, .file _ => none
  | [], .directory _ => none
  | [name], .directory entries =>
    match child? entries name with
    | some (.directory _) => none
    | some (.file contents) => some (.directory (setEntry entries name (.file (change contents))))
    | none => some (.directory (setEntry entries name (.file (change none))))
  | name :: way, .directory entries => do
    let child ← update? change way (← child? entries name)
    some (.directory (setEntry entries name child))

/-- The tree without the node at the end of a way. -/
def remove : List String → FileNode → FileNode
  | [name], .directory entries => .directory (entries.filter fun (n, _) => n != name)
  | name :: way, .directory entries =>
    .directory (entries.map fun (n, node) => if n == name then (n, remove way node) else (n, node))
  | _, node => node

/-- The tree with a node at the end of a way; directories on the way are made when they are
missing. -/
def place (node : FileNode) : List String → FileNode → FileNode
  | [], _ => node
  | name :: way, .directory entries =>
    let child := (child? entries name).getD (.directory [])
    .directory (setEntry entries name (place node way child))
  | name :: way, .file _ => .directory [(name, place node way (.directory []))]

end FileNode

/-- All files, seen from a working directory. -/
structure FileTree where
  root : FileNode
  /-- The way from the root to the working directory. -/
  workingDir : List String := []

namespace FileTree

/-- Whether a directory lies at the end of a way. -/
def isDirectoryAt (t : FileTree) (way : List String) : Bool :=
  match t.root.lookup? way with
  | some node => node.isDirectory
  | none => false

/-- Goes on from a directory along the pieces of a path.  Every place but the last must be a
directory; the last need not exist. -/
def walk? (t : FileTree) : List (List Char) → List String → Option (List String)
  | [], here => some here
  | piece :: rest, here =>
    if t.isDirectoryAt here then
      if piece = [] ∨ piece = ['.'] then t.walk? rest here
      else if piece = ['.', '.'] then t.walk? rest here.dropLast
      else t.walk? rest (here ++ [String.ofList piece])
    else none

/-- The way from the root that a path leads. -/
def resolve? (t : FileTree) (path : String) : Option (List String) :=
  if path.isEmpty then none
  else t.walk? (Text.split '/' path.toList) (if Path.isAbsolute path then [] else t.workingDir)

/-- What the file at a path holds. -/
def contents? (t : FileTree) (path : String) : Option Contents :=
  match (t.resolve? path).bind (FileNode.lookup? · t.root) with
  | some (.file contents) => some contents
  | _ => none

/-- Whether a path leads to a file. -/
def isFile (t : FileTree) (path : String) : Bool :=
  (t.contents? path).isSome

/-- The text of the file at a path. -/
def readText? (t : FileTree) (path : String) : Option String :=
  (t.contents? path).bind Contents.text?

/-- The files after the one at a path was given what `change` makes of what it held. -/
def update? (t : FileTree) (change : Option Contents → Contents) (path : String) :
    Option FileTree := do
  let root ← t.root.update? change (← t.resolve? path)
  some { t with root }

/-- The files after a text was written to a path. -/
def write? (t : FileTree) (path s : String) : Option FileTree :=
  t.update? (fun _ => .text s) path

/-- The files after a text was added to the end of the file at a path; a file that is missing is
made. -/
def append? (t : FileTree) (path s : String) : Option FileTree :=
  t.update? (fun held => (held.getD (.text "")).append s) path

/-- The files with a node at the end of a way from the working directory. -/
def place (t : FileTree) (way : List String) (node : FileNode) : FileTree :=
  { t with root := FileNode.place node (t.workingDir ++ way) t.root }

/-- The files without the node at the end of a way from the working directory. -/
def remove (t : FileTree) (way : List String) : FileTree :=
  { t with root := t.root.remove (t.workingDir ++ way) }

end FileTree

end LintDebt
