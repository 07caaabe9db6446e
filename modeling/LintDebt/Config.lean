import LintDebt.FileTree
import LintDebt.Json.Parser
import LintDebt.Ledger.Basic
import LintDebt.Toml.Document

/-!
# Configuration

The decay policy stands either in a file of its own or in a section of the package description,
never in both.

* `LintDebt.Config.conflict?`: what to say when it stands in both.
* `LintDebt.Config.sectionFor?`: the part of a configuration that counts for an engine.
* `LintDebt.Config.check`: the first window of a policy that is out of order.
* `LintDebt.Config.load`: the policy that counts for an engine.
-/

namespace LintDebt.Config

/-- The name of the file that holds the configuration alone. -/
def rcFile : String := ".lint-todorc.toml"

/-- The name of the package description. -/
def packageFile : String := "package.json"

/-- The section of the package description that holds the configuration. -/
def packageKey : String := "lintTodo"

/-- What to say when the configuration stands in both places. -/
def conflictMessage : String :=
  "You cannot have todo configurations in both package.json and .lint-todorc.toml. " ++
    "Please move the configuration from the package.json to the .lint-todorc.toml"

/-! ## Sources -/

/-- The text of a configuration file. -/
def read (files : FileTree) (path : String) : Except LedgerError String :=
  match files.readText? path with
  | some text => .ok text
  | none => .error (.file .readConfig path)

/-- The value that a text denotes in which, of the members of one name, only the last stands. -/
def parseMerged? (text : String) : Option Json :=
  (Json.parseStrict? text).map Json.merged

/-- The section of the package description in a directory, if there is one. -/
def packageSection (files : FileTree) (baseDir : String) : Except LedgerError (Option Json) :=
  let path := Path.join baseDir packageFile
  if !files.isFile path then .ok none
  else do
    match parseMerged? (← read files path) with
    | none => .error (.unreadableConfig path)
    | some description => .ok (description.get? packageKey)

/-- What to say about the sources in a directory, if something is wrong with them. -/
def conflict? (files : FileTree) (baseDir : String) : Option String :=
  let inPackage := match packageSection files baseDir with
    | .ok (some _) => true
    | _ => false
  if files.isFile (Path.join baseDir rcFile) && inPackage then some conflictMessage else none

/-- The configuration in a directory as it stands in its source, with the path of the source. -/
def source (files : FileTree) (baseDir : String) : Except LedgerError (Option (String × Json)) :=
  let rc := Path.join baseDir rcFile
  if files.isFile rc then do
    match Toml.parse? (← read files rc) with
    | none => .error (.unreadableConfig rc)
    | some document => .ok (some (rc, document.toJson))
  else do
    let found ← packageSection files baseDir
    .ok (found.map (Path.join baseDir packageFile, ·))

/-! ## Policies -/

/-- The part of a configuration that counts for an engine: its own section; or the whole, read as a
window when it has a side of one, and as a policy otherwise. -/
def sectionFor? (engine : String) (raw : Json) : Option DecayPolicy :=
  match raw.get? engine with
  | some section' => DecayPolicy.ofJson? section'
  | none =>
    if (raw.get? "warn").isSome || (raw.get? "error").isSome then
      (DecayWindow.ofJson? raw).map fun window => { window := some window }
    else DecayPolicy.ofJson? raw

/-- A policy whose general window gives way to another, side by side. -/
def override (overrides : DecayWindow) (p : DecayPolicy) : DecayPolicy :=
  if overrides.isEmpty then p
  else { p with window := some (overrides.orElse (p.window.getD {})) }

/-- The windows of a policy, the general one first. -/
def windows (p : DecayPolicy) : List DecayWindow :=
  p.window.toList ++ p.byRule.map (·.2)

/-- A policy all of whose windows are in order. -/
def check (p : DecayPolicy) : Except LedgerError DecayPolicy :=
  match (windows p).findSome? DecayWindow.disorder? with
  | some (warn, error) => .error (.invalidDecay warn error)
  | none => .ok p

/-- The policy that counts for an engine. -/
def load (files : FileTree) (baseDir engine : String) (overrides : DecayWindow) :
    Except LedgerError DecayPolicy := do
  let p ← match ← source files baseDir with
    | none => .ok {}
    | some (path, raw) =>
      match sectionFor? engine raw with
      | some p => .ok p
      | none => .error (.unreadableConfig path)
  check (override overrides p)

end LintDebt.Config
