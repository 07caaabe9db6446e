/-!
# Arguments of a command line

Options start with hyphens and stand before what they do not name; each is given at most once.  An
option takes a value, in the next argument or behind an equals sign, or it is a flag.

* `LintDebt.Arguments.Spec`: an option that is known.
* `LintDebt.Arguments.Given`: the options given, with their values.
* `LintDebt.Arguments.scan`: the options at the start of an argument list.
-/

namespace LintDebt.Arguments

/-- An option that is known. -/
structure Spec where
  /-- The name behind two hyphens. -/
  name : String
  /-- The letter behind one hyphen. -/
  letter : Option Char := none
  /-- The values that are accepted; without it the option is a flag. -/
  accepts : Option (String → Bool) := none

/-- The options given, each with its value; that of a flag is empty. -/
abbrev Given := List (String × String)

namespace Given

/-- Whether an option is given. -/
def contains (g : Given) (name : String) : Bool :=
  g.any (·.1 == name)

/-- The value given for an option. -/
def value? (g : Given) (name : String) : Option String :=
  (g.find? (·.1 == name)).map (·.2)

/-- The options with one more, unless it is given already. -/
def add? (g : Given) (name value : String) : Option Given :=
  if g.contains name then none else some (g ++ [(name, value)])

end Given

/-- What comes of reading options. -/
inductive Scan where
  /-- The options given, and the arguments from the first that is no option. -/
  | options (given : Given) (rest : List String)
  /-- An explanation is asked for. -/
  | help
  /-- The arguments cannot be understood. -/
  | misuse
  deriving DecidableEq, Repr

/-- The name that asks for an explanation, and its letter. -/
def helpSpec : Spec := ⟨"help", some 'h', none⟩

/-- An argument behind its two hyphens, cut at the first equals sign. -/
def cutAtEquals (s : List Char) : String × Option String :=
  let name := String.ofList (s.takeWhile (· != '='))
  match s.dropWhile (· != '=') with
  | _ :: value => (name, some (String.ofList value))
  | [] => (name, none)

/-- Whether an argument can be the value of the option in front of it: a hyphen alone can, but
nothing else that starts with one. -/
def isValue (arg : String) : Bool :=
  match arg.toList with
  | '-' :: rest => rest.isEmpty
  | _ => true

/-- Reads flags given by their letters, behind one hyphen. -/
def letters (specs : List Spec) (given : Given) : List Char → Scan
  | [] => .options given []
  | c :: rest =>
    if helpSpec.letter == some c then .help
    else
      match specs.find? fun spec => spec.letter == some c && spec.accepts.isNone with
      | none => .misuse
      | some spec =>
        match given.add? spec.name "" with
        | none => .misuse
        | some given => letters specs given rest

/-- Reads an option by its name.  `next` are the arguments behind it; its value may be the first of
them. -/
def named (specs : List Spec) (given : Given) (name : String) (value : Option String)
    (next : List String) : Scan :=
  if name == helpSpec.name && value.isNone then .help
  else
    match specs.find? (·.name == name) with
    | none => .misuse
    | some spec =>
      let add (value : String) (rest : List String) : Scan :=
        match given.add? name value with
        | none => .misuse
        | some given => .options given rest
      match spec.accepts, value, next with
      | none, none, rest => add "" rest
      | none, some _, _ => .misuse
      | some accepts, some value, rest => if accepts value then add value rest else .misuse
      | some accepts, none, value :: rest =>
        if isValue value && accepts value then add value rest else .misuse
      | some _, none, [] => .misuse

/-- Reads the options at the start of an argument list; a pair of hyphens ends them and may only
come last.  Each option takes one argument or two, so there are at most as many as arguments. -/
def scanWithin (specs : List Spec) : Nat → Given → List String → Scan
  | 0, _, _ => .misuse
  | _, given, [] => .options given []
  | fuel + 1, given, arg :: rest =>
    match arg.toList with
    | ['-', '-'] => if rest.isEmpty then .options given [] else .misuse
    | '-' :: '-' :: long =>
      let (name, value) := cutAtEquals long
      match named specs given name value rest with
      | .options given rest => scanWithin specs fuel given rest
      | other => other
    | '-' :: c :: more =>
      match letters specs given (c :: more) with
      | .options given _ => scanWithin specs fuel given rest
      | other => other
    | _ => .options given (arg :: rest)

/-- Reads the options at the start of an argument list. -/
def scan (specs : List Spec) (args : List String) : Scan :=
  scanWithin specs (args.length + 1) [] args

end LintDebt.Arguments
