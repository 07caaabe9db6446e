import LintDebt.Run

/-!
# Settings

What a run is to do follows from the variables of the environment, the flags of the command line,
and the terminal.

* `LintDebt.Invocation`: the flags and the terminal.
* `LintDebt.SettingsError`: the cause for which settings cannot be resolved, and its wording.
* `LintDebt.Settings.resolve`: the settings for a lookup of variables and an invocation.
* `LintDebt.Settings.runOptions`: the options of a run under some settings.
-/

namespace LintDebt

open LintDebt.Text (allBlank trim natBelow?)

/-- The flags and facts that are no variables of the environment. -/
structure Invocation where
  /-- Whether cleaning is asked for. -/
  fix : Bool := false
  format : Option String := none
  baseDir : Option String := none
  cwd : String
  /-- Whether the output goes to a terminal. -/
  isTerminal : Bool := false
  /-- The width that the terminal reports. -/
  terminalColumns : Option Nat := none

/-- The cause for which settings cannot be resolved: a variable holds no number of days. -/
structure SettingsError where
  variableName : String
  value : String
  deriving DecidableEq, Repr

/-- The wording of an error in the settings. -/
def SettingsError.message (e : SettingsError) : String :=
  e.variableName ++ " must be a whole number of days, got '" ++ e.value ++ "'"

/-- What a run is to do, as far as the environment and the command line say. -/
structure Settings where
  baseDir : String
  updating : Bool
  includeTodos : Bool
  cleaning : Bool
  compactOnly : Bool
  format : Option String
  overrides : DecayWindow
  presentation : Presentation

namespace Settings

/-- The value of a variable, if it is set. -/
abbrev Lookup := String → Option String

/-- The lookup of a list of variables. -/
def lookupIn (environment : List (String × String)) : Lookup :=
  fun name => (environment.find? (·.1 == name)).map (·.2)

/-! ## Variables -/

/-- The variables that settings follow from. -/
def variableNames : List String :=
  ["UPDATE_TODO", "INCLUDE_TODO", "TODO_DAYS_TO_WARN", "TODO_DAYS_TO_ERROR", "NO_CLEAN_TODO",
    "COMPACT_TODO", "FORMAT_TODO_AS", "STYLELINT_TODO_DIR", "NO_COLOR", "COLUMNS", "CI",
    "CONTINUOUS_INTEGRATION", "BUILD_NUMBER", "RUN_ID"]

/-- The value of a variable that is set to something. -/
def nonEmpty? (lookup : Lookup) (name : String) : Option String :=
  (lookup name).filter fun value => !value.isEmpty

/-- Whether a variable is set to something. -/
def isSet (lookup : Lookup) (name : String) : Bool :=
  (nonEmpty? lookup name).isSome

/-- Whether a variable is set to one. -/
def isOne (lookup : Lookup) (name : String) : Bool :=
  lookup name == some "1"

/-- The number of days that a variable is set to; a blank value counts as none. -/
def days (lookup : Lookup) (name : String) : Except SettingsError (Option UInt32) :=
  match (lookup name).filter fun value => !allBlank value with
  | none => .ok none
  | some value =>
    match natBelow? UInt32.size (trim value) with
    | none => .error ⟨name, value⟩
    | some n => .ok (some (UInt32.ofNat n))

/-- The variables by which a build server makes itself known. -/
def buildMarkers : List String :=
  ["CONTINUOUS_INTEGRATION", "BUILD_NUMBER", "RUN_ID"]

/-- Whether the program runs on a build server. -/
def onBuildServer (lookup : Lookup) : Bool :=
  match lookup "CI" with
  | some value => value != "false" && value != "0"
  | none => buildMarkers.any fun name => (lookup name).isSome

/-- The width of a terminal of which nothing is known. -/
def usualColumns : Nat := 80

/-- The width of the terminal, when there is one: as the environment says, or else as the terminal
reports. -/
def columns (lookup : Lookup) (i : Invocation) : Option Nat :=
  if i.isTerminal then
    let given := (lookup "COLUMNS").bind fun value => natBelow? UInt64.size (trim value)
    some ((given <|> i.terminalColumns).getD usualColumns)
  else none

/-! ## Resolution -/

/-- The settings for a lookup of variables and an invocation. -/
def resolve (lookup : Lookup) (i : Invocation) : Except SettingsError Settings := do
  let warn ← days lookup "TODO_DAYS_TO_WARN"
  let error ← days lookup "TODO_DAYS_TO_ERROR"
  return {
    baseDir := (i.baseDir <|> nonEmpty? lookup "STYLELINT_TODO_DIR").getD i.cwd
    updating := isOne lookup "UPDATE_TODO"
    includeTodos := isOne lookup "INCLUDE_TODO"
    cleaning := i.fix || (!isSet lookup "NO_CLEAN_TODO" && !onBuildServer lookup)
    compactOnly := isSet lookup "COMPACT_TODO"
    format := i.format <|> nonEmpty? lookup "FORMAT_TODO_AS"
    overrides := ⟨warn, error⟩
    presentation := {
      color := i.isTerminal && !isSet lookup "NO_COLOR"
      columns := columns lookup i
      cwd := i.cwd } }

/-- The options of a run under some settings. -/
def runOptions (s : Settings) : RunOptions where
  baseDir := s.baseDir
  updating := s.updating
  includeTodos := s.includeTodos
  cleaning := s.cleaning
  compactOnly := s.compactOnly
  format := s.format
  overrides := s.overrides
  presentation := s.presentation

end Settings

end LintDebt
