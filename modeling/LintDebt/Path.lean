import LintDebt.Text.Split

/-!
# Paths

Paths are texts whose parts are separated by slashes.  Repeated slashes count as one, and a dot
names no part except at the start of a path that is not absolute.

* `LintDebt.Path.Component`, `LintDebt.Path.components`: the parts of a path.
* `LintDebt.Path.join`: a path seen from a directory.
* `LintDebt.Path.relativeTo`: a path as seen from a base directory.
-/

namespace LintDebt.Path

/-- A part of a path. -/
inductive Component where
  | root
  | current
  | parent
  | named (name : String)
  deriving DecidableEq, Repr

/-- The component that a piece between slashes stands for, if any. -/
def componentOfPiece? (piece : List Char) : Option Component :=
  if piece = [] ∨ piece = ['.'] then none
  else if piece = ['.', '.'] then some .parent
  else some (.named (String.ofList piece))

/-- Whether a path starts at the root. -/
def isAbsolute (path : String) : Bool :=
  path.toList.head? == some '/'

/-- The parts of a path. -/
def components (path : String) : List Component :=
  let pieces := Text.split '/' path.toList
  let start :=
    if isAbsolute path then [Component.root]
    else if pieces.head? == some ['.'] then [Component.current]
    else []
  start ++ pieces.filterMap componentOfPiece?

/-- A path seen from a directory: an absolute path stands on its own. -/
def join (directory path : String) : String :=
  if isAbsolute path then path
  else if directory.isEmpty || directory.toList.getLast? == some '/' then directory ++ path
  else directory ++ "/" ++ path

/-- The name that a component contributes to a relative path. -/
def Component.name? : Component → Option String
  | .named name => some name
  | .parent => some ".."
  | _ => none

/-- What is left of two lists behind the longest common start. -/
def dropCommon : List Component → List Component → List Component × List Component
  | a :: as, b :: bs => if a = b then dropCommon as bs else (a :: as, b :: bs)
  | as, bs => (as, bs)

/-- Whether a component is a plain name. -/
def Component.isNamed : Component → Bool
  | .named _ => true
  | _ => false

/-- The components of a path behind those of a base, or all of them when it does not start with
the base. -/
def stripBase (base path : List Component) : List Component :=
  match dropCommon base path with
  | ([], rest) => rest
  | _ => path

/-- The names that lead from one absolute path to another: one step up for each name left of the
base, then down to the target. -/
def climb (base target : List Component) : List String :=
  let (up, down) := dropCommon base target
  (up.filter Component.isNamed).map (fun _ => "..") ++ down.filterMap Component.name?

/-- A source path as seen from a base directory.  Two absolute paths are compared part by part,
and a source outside the base climbs out of it; otherwise the base is only taken off the front. -/
def relativeTo (base source : String) : String :=
  let names :=
    if isAbsolute source && isAbsolute base then climb (components base) (components source)
    else (stripBase (components base) (components source)).filterMap Component.name?
  "/".intercalate names

end LintDebt.Path
