/-!
# JSON values

Objects keep their members as written, in order and with repeated names, because whether a
repeated name is an error depends on who reads the object.

* `LintDebt.Json`: a JSON value.
* `LintDebt.Json.depth`: how deeply arrays and objects nest.
* `LintDebt.Json.isSound`: every text is legible and every number is finite.
* `LintDebt.Json.merged`: the value in which the last member of each name stands alone.
-/

namespace LintDebt

/-- A JSON value.  A whole number written without fraction and exponent is an `int` (except
`-0`); every other number is a `decimal`, that is `coefficient * 10 ^ exponent` with a sign.
`illegible` stands for a string, or an object with a member name, in which an escape names half
of a surrogate pair. -/
inductive Json where
  | null
  | bool (b : Bool)
  | int (i : Int)
  | decimal (negative : Bool) (coefficient : Nat) (exponent : Int)
  | str (s : String)
  | arr (items : List Json)
  | obj (members : List (String × Json))
  | illegible
  deriving Inhabited, Repr

namespace Json

/-- The value of a natural number. -/
def nat (n : Nat) : Json := .int n

/-- The first magnitude that a double-precision number cannot hold: halfway between the largest
finite one and the next power of two. -/
def overflowBound : Nat := (1 <<< 1024) - (1 <<< 970)

/-- A power of ten. -/
def tenTo (n : Nat) : Nat := Nat.pow 10 n

/-- Whether `coefficient * 10 ^ exponent` is too large for a double-precision number.  The number
of digits decides all but the numbers near the bound, so that no large power is computed. -/
def overflows (coefficient : Nat) (exponent : Int) : Bool :=
  let size : Int := (Nat.toDigits 10 coefficient).length + exponent
  if coefficient = 0 then false
  else if size > 310 then true
  else if size < 300 then false
  else if 0 ≤ exponent then decide (overflowBound ≤ coefficient * tenTo exponent.toNat)
  else decide (overflowBound * tenTo (-exponent).toNat ≤ coefficient)

mutual

/-- How many arrays and objects enclose each other at the deepest place of the value. -/
def depth : Json → Nat
  | .arr items => depthItems items + 1
  | .obj members => depthMembers members + 1
  | _ => 0

/-- The greatest depth among the items of an array. -/
def depthItems : List Json → Nat
  | [] => 0
  | item :: rest => max (depth item) (depthItems rest)

/-- The greatest depth among the members of an object. -/
def depthMembers : List (String × Json) → Nat
  | [] => 0
  | (_, value) :: rest => max (depth value) (depthMembers rest)

end

mutual

/-- Whether every text in the value is legible and every number in it is finite. -/
def isSound : Json → Bool
  | .int i => !overflows i.natAbs 0
  | .decimal _ coefficient exponent => !overflows coefficient exponent
  | .arr items => areSoundItems items
  | .obj members => areSoundMembers members
  | .illegible => false
  | _ => true

/-- Whether every item of an array is sound. -/
def areSoundItems : List Json → Bool
  | [] => true
  | item :: rest => isSound item && areSoundItems rest

/-- Whether every member of an object is sound. -/
def areSoundMembers : List (String × Json) → Bool
  | [] => true
  | (_, value) :: rest => isSound value && areSoundMembers rest

end

/-- How many arrays and objects a strictly read value may nest. -/
def maxDepth : Nat := 127

/-- Whether a strict reader takes the value: it is sound and does not nest too deeply. -/
def isStrict (j : Json) : Bool :=
  j.isSound && decide (j.depth ≤ maxDepth)

mutual

/-- The value in which, of the members of one name, only the last stands. -/
def merged : Json → Json
  | .arr items => .arr (mergedItems items)
  | .obj members => .obj (mergedMembers members)
  | j => j

/-- The items of an array, each merged. -/
def mergedItems : List Json → List Json
  | [] => []
  | item :: rest => merged item :: mergedItems rest

/-- The members of an object, each merged, without those that a later one of the same name
replaces. -/
def mergedMembers : List (String × Json) → List (String × Json)
  | [] => []
  | (name, value) :: rest =>
    let later := mergedMembers rest
    if later.any (·.1 == name) then later else (name, merged value) :: later

end

/-- The value of the last member with the given name, when the value is an object that has one. -/
def get? (j : Json) (name : String) : Option Json :=
  match j with
  | .obj members => (members.reverse.find? (·.1 == name)).map (·.2)
  | _ => none

end Json

end LintDebt
