import LintDebt.Command
import Std.Time.Zoned

/-!
# The program

The outer layer: it looks at the files, the environment and the clock, lets a command say what is
to be done, and does it.
-/

namespace LintDebt.Program

/-- What lies at a path of the machine, if anything. -/
def nodeAt (path : String) : IO (Option FileNode) := do
  try
    let bytes ← IO.FS.readBinFile path
    return some (.file (.ofBytes bytes.toList))
  catch
    | .inappropriateType .. => return some (.directory [])
    | _ => return none

/-- The tree with what lies on the way along the pieces of a path. -/
def lookAlong (files : FileTree) : List (List Char) → List String → IO FileTree
  | [], _ => return files
  | piece :: rest, here => do
    if piece = [] ∨ piece = ['.'] then lookAlong files rest here
    else if piece = ['.', '.'] then lookAlong files rest here.dropLast
    else
      let next := here ++ [String.ofList piece]
      if files.isDirectoryAt next then lookAlong files rest next
      else
        match ← nodeAt ("/" ++ "/".intercalate next) with
        | none => return files
        | some node => lookAlong { files with root := node.place next files.root } rest next

/-- The tree with what lies at a path, seen from the working directory. -/
def look (cwd : String) (files : FileTree) (path : String) : IO FileTree :=
  lookAlong files (Text.split '/' (Path.join cwd path).toList) []

/-- Everything that is given to read. -/
def readInput : IO (Option String) := do
  let stdin ← IO.getStdin
  let mut bytes := ByteArray.empty
  repeat
    let chunk ← stdin.read 65536
    if chunk.isEmpty then break
    bytes := bytes ++ chunk
  return String.fromUTF8? bytes

/-- The date of today. -/
def today : IO Date := do
  let d ← Std.Time.PlainDate.now
  match Date.ofYmd? d.year.toInt d.month.toNat d.day.toNat with
  | some date => return date
  | none => throw (IO.userError "the clock shows no date")

/-- Whether a command reads its input, when it names no file. -/
def readsInput (w : World) : Command → Bool
  | .format path _ _ _ =>
    (path.filter (· != "-")).isNone && !Settings.isSet (Settings.lookupIn w.environment) "COMPACT_TODO"
  | .config _ _ => false

/-- The path that a command reads its results from, if it names one. -/
def inputPath? : Command → Option String
  | .format path _ _ _ => path
  | .config _ _ => none

/-- The world without files. -/
def bareWorld : IO World := do
  let cwd := toString (← IO.currentDir)
  let mut environment := []
  for name in Settings.variableNames do
    if let some value ← IO.getEnv name then environment := (name, value) :: environment
  let workingDir := ((Text.split '/' cwd.toList).filter (· != [])).map String.ofList
  return {
    files := { root := .directory [], workingDir }
    cwd
    environment
    input := none
    today := ← today
    isTerminal := ← (← IO.getStdout).isTty }

/-- The world with all that a command reads. -/
def worldFor (c : Command) : IO World := do
  let bare ← bareWorld
  let files ← ("." :: (inputPath? c).toList).foldlM (look bare.cwd) bare.files
  let input ← if readsInput bare c then readInput else pure none
  let w := { bare with files, input }
  return { w with files := ← (w.pathsNeeded c).foldlM (look w.cwd) w.files }

/-- Writes the files that a command has changed. -/
def writeBack (before after : FileTree) (paths : List String) : IO Unit := do
  for path in paths do
    if before.contents? path != after.contents? path then
      match after.contents? path with
      | some (.text s) => IO.FS.writeFile path s
      | some (.binary bytes) => IO.FS.writeBinFile path ⟨bytes.toArray⟩
      | none => pure ()

/-- Does what a command says. -/
def perform (c : Command) : IO UInt32 := do
  let w ← worldFor c
  let o := w.execute c
  writeBack w.files o.files (w.pathsNeeded c)
  IO.print o.output
  if let some message := o.error then IO.eprintln message
  return UInt32.ofNat o.code

end LintDebt.Program

open LintDebt in
/-- Does what the command line says. -/
def main (args : List String) : IO UInt32 := do
  match Command.ofArguments args with
  | .command c => Program.perform c
  | .help => IO.print World.helpText; return 0
  | .misuse => IO.eprint World.helpText; return 2
