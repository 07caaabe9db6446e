import LintDebt.Json.Record

/-!
# Decay windows

A todo may decay: after some days it weighs as a warning, after more days as an error again.

* `LintDebt.DecayWindow`: the two numbers of days, either of which may be missing.
* `LintDebt.DecayPolicy`: a window for all rules, and windows for single rules.
* `LintDebt.DecayPolicy.windowFor`: the window that counts for a rule.
-/

namespace LintDebt

open Json (Field fieldNames orDefault optional uint32? uint32 map? whenSome always)

/-- The days after which a todo weighs as a warning and as an error. -/
structure DecayWindow where
  warn : Option UInt32 := none
  error : Option UInt32 := none
  deriving DecidableEq, Repr

namespace DecayWindow

/-- Whether neither side is set. -/
def isEmpty (w : DecayWindow) : Bool :=
  w.warn.isNone && w.error.isNone

/-- A window whose sides, where they are set, take precedence over those of another. -/
def orElse (w base : DecayWindow) : DecayWindow :=
  ⟨w.warn <|> base.warn, w.error <|> base.error⟩

/-- The two sides of a window in which the warning does not come before the error. -/
def disorder? (w : DecayWindow) : Option (UInt32 × UInt32) :=
  match w.warn, w.error with
  | some warn, some error => if error ≤ warn then some (warn, error) else none
  | _, _ => none

/-- A window in JSON. -/
def toJson (w : DecayWindow) : Json :=
  .obj (whenSome "warn" uint32 w.warn ++ whenSome "error" uint32 w.error)

/-- The window that a JSON value denotes. -/
def ofJson? (j : Json) : Option DecayWindow := do
  let [warn, error] ← j.fields? (fieldNames ["warn", "error"]) | none
  some ⟨← optional uint32? warn, ← optional uint32? error⟩

end DecayWindow

/-- Windows by rule, in the order of the rules' names. -/
abbrev RuleWindows := List (String × DecayWindow)

namespace RuleWindows

/-- Sets the window of a rule, keeping the order of the names. -/
def insert (rule : String) (window : DecayWindow) : RuleWindows → RuleWindows
  | [] => [(rule, window)]
  | (r, w) :: rest =>
    if rule < r then (rule, window) :: (r, w) :: rest
    else if rule = r then (rule, window) :: rest
    else (r, w) :: insert rule window rest

/-- The windows of a list of rules; of two windows for one rule the later counts. -/
def ofList (windows : List (String × DecayWindow)) : RuleWindows :=
  windows.foldl (fun ws (rule, window) => insert rule window ws) []

/-- The window of a rule. -/
def find? (windows : RuleWindows) (rule : String) : Option DecayWindow :=
  (List.find? (fun entry => entry.1 == rule) windows).map (·.2)

end RuleWindows

/-- How the todos of an engine decay. -/
structure DecayPolicy where
  /-- The window of the rules that have none of their own. -/
  window : Option DecayWindow := none
  /-- The windows of single rules. -/
  byRule : RuleWindows := []
  deriving DecidableEq, Repr

namespace DecayPolicy

/-- The window that counts for a rule: its own, or else the general one. -/
def windowFor (p : DecayPolicy) (rule : String) : Option DecayWindow :=
  p.byRule.find? rule <|> p.window

/-- The fields of a policy with their second names. -/
def fields : List Field :=
  [⟨"days_to_decay", some "daysToDecay"⟩, ⟨"days_to_decay_by_rule", some "daysToDecayByRule"⟩]

/-- A policy in JSON. -/
def toJson (p : DecayPolicy) : Json :=
  .obj (whenSome "days_to_decay" DecayWindow.toJson p.window ++
    if p.byRule.isEmpty then []
    else always "days_to_decay_by_rule" (.obj (p.byRule.map fun (r, w) => (r, w.toJson))))

/-- The policy that a JSON value denotes. -/
def ofJson? (j : Json) : Option DecayPolicy := do
  let [window, byRule] ← j.fields? fields | none
  some {
    window := ← optional DecayWindow.ofJson? window
    byRule := RuleWindows.ofList (← orDefault [] (map? DecayWindow.ofJson?) byRule) }

end DecayPolicy

end LintDebt
