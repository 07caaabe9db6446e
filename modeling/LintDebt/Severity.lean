import LintDebt.Json.Record

/-!
# Severities

* `LintDebt.Severity`: how much a diagnostic weighs.
* `LintDebt.Severity.ofCode?`: the severity behind a numeric code.
-/

namespace LintDebt

/-- How much a diagnostic weighs. -/
inductive Severity where
  | todo
  | off
  | warning
  | error
  deriving DecidableEq, Repr

namespace Severity

/-- The name of a severity. -/
def name : Severity → String
  | .todo => "todo"
  | .off => "off"
  | .warning => "warning"
  | .error => "error"

/-- The severity of a name. -/
def ofName? : String → Option Severity
  | "todo" => some .todo
  | "off" => some .off
  | "warning" => some .warning
  | "error" => some .error
  | _ => none

/-- The numeric code of a severity. -/
def code : Severity → Int
  | .todo => -1
  | .off => 0
  | .warning => 1
  | .error => 2

/-- The severity behind a numeric code. -/
def ofCode? (code : Int) : Option Severity :=
  if code = -1 then some .todo
  else if code = 0 then some .off
  else if code = 1 then some .warning
  else if code = 2 then some .error
  else none

@[simp] theorem ofName?_name (s : Severity) : ofName? s.name = some s := by
  cases s <;> rfl

@[simp] theorem ofCode?_code (s : Severity) : ofCode? s.code = some s := by
  cases s <;> rfl

theorem ofCode?_eq_some_iff {c : Int} {s : Severity} : ofCode? c = some s ↔ c = s.code := by
  unfold ofCode?
  cases s <;> grind [code]

/-- A number in JSON names a severity exactly when it is the code of that severity. -/
theorem bind_ofCode?_int32?_eq_some_iff {j : Json} {s : Severity} :
    j.int32?.bind ofCode? = some s ↔ j = .int s.code := by
  constructor
  · intro h
    obtain ⟨c, hread, hcode⟩ := Option.bind_eq_some_iff.mp h
    cases j with
    | int i =>
      rw [Json.int32?] at hread
      split at hread
      · rw [← ofCode?_eq_some_iff.mp hcode, Option.some.inj hread]
      · cases hread
    | _ => cases hread
  · rintro rfl
    cases s <;> rfl

/-- A severity in JSON. -/
def toJson (s : Severity) : Json :=
  .str s.name

/-- The severity that a JSON value denotes. -/
def ofJson? (j : Json) : Option Severity :=
  j.unit?.bind ofName?

end Severity

end LintDebt
