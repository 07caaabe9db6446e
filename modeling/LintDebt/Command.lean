import LintDebt.Command.Arguments
import LintDebt.Ledger.File
import LintDebt.Settings
import LintDebt.Toml.Printer

/-!
# Commands

What the program does for a command line: it reports results, or prints the configuration.

* `LintDebt.Command`: the commands with their options.
* `LintDebt.Command.ofArguments`: the command that arguments ask for.
* `LintDebt.World`: what a command sees of the world.
* `LintDebt.CommandOutcome`: what a command answers, and the files after it.
* `LintDebt.World.pathsNeeded`: the files that a command reads.
* `LintDebt.World.run`: the program.
-/

namespace LintDebt

/-! ## Command lines -/

/-- A form in which the configuration is printed. -/
inductive ConfigFormat where
  | toml
  | json
  deriving DecidableEq, Repr

/-- What the program can do. -/
inductive Command where
  /-- Report results. -/
  | format (input baseDir : Option String) (fix : Bool) (as : Option String)
  /-- Print the configuration. -/
  | config (baseDir : Option String) (as : ConfigFormat)
  deriving DecidableEq, Repr

/-- What a command line asks for. -/
inductive Request where
  | command (c : Command)
  /-- An explanation of the program. -/
  | help
  /-- Nothing that can be understood. -/
  | misuse
  deriving DecidableEq, Repr

namespace Command

open Arguments (Spec Given Scan scan)

/-- The flags that every command takes; they make the program speak of what it does. -/
def commonSpecs : List Spec :=
  [⟨"verbose", some 'v', none⟩, ⟨"debug", none, none⟩]

/-- An option whose value is a path. -/
def pathSpec (name : String) : Spec :=
  ⟨name, none, some fun value => !value.isEmpty⟩

/-- The options of a report. -/
def formatSpecs : List Spec :=
  [pathSpec "input", pathSpec "base-dir", ⟨"fix", none, none⟩,
    ⟨"format", none, some fun _ => true⟩] ++ commonSpecs

/-- The form of a name in which the configuration is printed. -/
def configFormat? : String → Option ConfigFormat
  | "toml" => some .toml
  | "json" => some .json
  | _ => none

/-- The options of printing the configuration. -/
def configSpecs : List Spec :=
  [pathSpec "base-dir", ⟨"format", none, some fun value => (configFormat? value).isSome⟩] ++
    commonSpecs

/-- The command of a list of options that must use up all arguments. -/
def ofScan (make : Given → Command) : Scan → Request
  | .options given [] => .command (make given)
  | .options _ (_ :: _) => .misuse
  | .help => .help
  | .misuse => .misuse

/-- The report that options ask for. -/
def formatOf (g : Given) : Command :=
  .format (g.value? "input") (g.value? "base-dir") (g.contains "fix") (g.value? "format")

/-- The configuration that options ask for. -/
def configOf (g : Given) : Command :=
  .config (g.value? "base-dir") (((g.value? "format").bind configFormat?).getD .toml)

/-- What is asked for behind the word for an explanation: the commands that can be explained. -/
def explained : List String → Request
  | [] | ["format"] | ["config"] | ["help"] => .help
  | _ => .misuse

/-- What arguments ask for: options of all commands, a command, and its options. -/
def ofArguments (args : List String) : Request :=
  match scan commonSpecs args with
  | .options _ ("format" :: rest) => ofScan formatOf (scan formatSpecs rest)
  | .options _ ("config" :: rest) => ofScan configOf (scan configSpecs rest)
  | .options _ ("help" :: rest) => explained rest
  | .options _ _ => .misuse
  | .help => .help
  | .misuse => .misuse

end Command

/-! ## Running -/

/-- What a command sees of the world. -/
structure World where
  files : FileTree
  /-- The path of the working directory. -/
  cwd : String
  environment : List (String × String)
  /-- What is given to read, if it is text. -/
  input : Option String
  today : Date
  /-- Whether the output goes to a terminal. -/
  isTerminal : Bool := false
  /-- The width that the terminal reports. -/
  terminalColumns : Option Nat := none

/-- What a command answers, and the files after it. -/
structure CommandOutcome where
  /-- The code that tells how it ended: 0 when all is well, 1 when it failed, 2 when errors are
  left or the command line cannot be understood. -/
  code : Nat
  output : String
  /-- Why it failed. -/
  error : Option String := none
  files : FileTree

namespace World

/-- The explanation of the program. -/
def helpText : String :=
  "Todo-aware post-processing for stylelint results\n\n" ++
    "Usage: lint-todo [OPTIONS] <COMMAND>\n\n" ++
    "Commands:\n" ++
    "  format  Reconcile stylelint JSON results with the todo ledger and print a report\n" ++
    "  config  Print the effective todo decay configuration\n"

/-- The settings of a command in a world. -/
def settings (w : World) (fix : Bool) (as baseDir : Option String) (shown : Bool) :
    Except SettingsError Settings :=
  Settings.resolve (Settings.lookupIn w.environment) {
    fix, format := as, baseDir, cwd := w.cwd
    isTerminal := shown && w.isTerminal
    terminalColumns := if shown then w.terminalColumns else none }

/-- The text of the results: of a file, or what is given to read. -/
def resultsText (w : World) (path : Option String) : Except String String :=
  match path.filter (· != "-") with
  | some path =>
    match w.files.readText? path with
    | some text => .ok text
    | none => .error ("read results " ++ path)
  | none =>
    match w.input with
    | some text => .ok text
    | none => .error "read results from stdin"

/-- The results of a text; a blank text holds none. -/
def resultsOf (text : String) : Except String (List LintResult) :=
  if Text.allBlank text then .ok []
  else
    match (Json.parse? text).bind LintResult.listOfJson? with
    | some results => .ok results
    | none => .error "parse stylelint results"

/-- The settings and results of a report. -/
def prepare (w : World) (path baseDir : Option String) (fix : Bool) (as : Option String) :
    Except String (Settings × List LintResult) := do
  let s ← (w.settings fix as baseDir true).mapError SettingsError.message
  if s.compactOnly then return (s, [])
  else return (s, ← resultsOf (← w.resultsText path))

/-- Reports results. -/
def format (w : World) (path baseDir : Option String) (fix : Bool) (as : Option String) :
    CommandOutcome :=
  match w.prepare path baseDir fix as with
  | .error message => ⟨1, "", some message, w.files⟩
  | .ok (s, results) =>
    let read (l : FileLedger) (path : String) := l.files.readText? path
    let ledger := FileLedger.openIn w.files s.baseDir w.today
    match (Run.formatter s.runOptions read results).run ledger with
    | (.error e, l) => ⟨1, "", some e.message, l.files⟩
    | (.ok run, l) => ⟨if run.errored then 2 else 0, run.output, none, l.files⟩

/-- The text of the configuration. -/
def configText (w : World) (baseDir : Option String) (as : ConfigFormat) : Except String String := do
  let s ← (w.settings false none baseDir false).mapError SettingsError.message
  match Config.conflict? w.files s.baseDir with
  | some problem => .error problem
  | none =>
    let policy ← (Config.load w.files s.baseDir defaultEngine s.overrides).mapError
      LedgerError.message
    match as with
    | .toml => return policy.toToml
    | .json => return policy.toJson.pretty ++ "\n"

/-- Does what a command says. -/
def execute (w : World) : Command → CommandOutcome
  | .format path baseDir fix as => w.format path baseDir fix as
  | .config baseDir as =>
    match w.configText baseDir as with
    | .ok text => ⟨0, text, none, w.files⟩
    | .error message => ⟨1, "", some message, w.files⟩

/-- The files in a directory that a ledger reads. -/
def ledgerPaths (baseDir : String) : List String :=
  [FileLedger.storageFile, Config.rcFile, Config.packageFile].map (Path.join baseDir)

/-- The files that a command reads besides its input. -/
def pathsNeeded (w : World) : Command → List String
  | .format path baseDir fix as =>
    match w.prepare path baseDir fix as with
    | .ok (s, results) => ledgerPaths s.baseDir ++ results.filterMap (·.source)
    | .error _ => []
  | .config baseDir _ =>
    match w.settings false none baseDir false with
    | .ok s => ledgerPaths s.baseDir
    | .error _ => []

/-- Does what a command line says. -/
def run (w : World) (args : List String) : CommandOutcome :=
  match Command.ofArguments args with
  | .command c => w.execute c
  | .help => ⟨0, helpText, none, w.files⟩
  | .misuse => ⟨2, "", none, w.files⟩

end World

end LintDebt
