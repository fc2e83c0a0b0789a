/-!
# Scanning arguments

Options and their values among the arguments of a program. An option is two hyphens and a name, or one
hyphen and a letter; its value stands after an equals sign, after the letter or in the next argument.
An argument that looks like an option is never a value.

A value in an argument of its own is only looked at when the next option comes, or at the end; so an
unknown option is reported before a value that is not allowed, and a value in the same argument as its
option is reported at once.
-/

namespace TypedEntities.CommandLine

/-- What an option takes. -/
inductive Takes
  | nothing
  | text
  /-- A text that is not empty. -/
  | path
  /-- A number without sign that fits 64 bits. -/
  | number
  /-- Ends the scan: help is asked for. -/
  | help
  /-- Ends the scan: the version is asked for. -/
  | version
deriving DecidableEq, Repr, Inhabited

/-- The value of an option. -/
inductive Value
  | on
  | text (text : String)
  | number (number : Nat)
deriving DecidableEq, Repr, Inhabited

/-- Why a scan ends early. -/
inductive Refusal
  | unknownArgument
  /-- An option stands twice. -/
  | conflict
  /-- A text is no number. -/
  | noNumber
  /-- A value is missing or has no meaning. -/
  | noValue
  /-- An option that takes nothing has a value. -/
  | unwantedValue
  /-- Help is asked for. -/
  | help
  /-- The version is asked for. -/
  | version
  /-- There is no command. -/
  | noCommand
  /-- There is no such command. -/
  | unknownCommand
  /-- An argument that has to be there is not. -/
  | missingArgument
deriving DecidableEq, Repr, Inhabited

/-- An option that a program has. -/
structure OptionSpec (κ : Type) where
  key : κ
  long : String
  short : Option Char
  takes : Takes
  /-- The environment variable that stands in for the option. -/
  variableName : Option String
deriving DecidableEq, Repr, Inhabited

/-- A number without sign that fits 64 bits; a plus sign may stand before it. -/
def parseNumber? (text : String) : Option Nat :=
  let digits :=
    match text.toList with
    | '+' :: rest => rest
    | cs => cs
  if digits.isEmpty || !digits.all Char.isDigit then none
  else
    let n := digits.foldl (fun n c => 10 * n + (c.toNat - 48)) 0
    if n < 0x10000000000000000 then some n else none

/-- The value that a text is for an option. -/
def Takes.read (takes : Takes) (text : String) : Except Refusal Value :=
  match takes with
  | .text => .ok (.text text)
  | .path => if text = "" then .error .noValue else .ok (.text text)
  | .number =>
    match parseNumber? text with
    | some n => .ok (.number n)
    | none => .error .noNumber
  | .nothing | .help | .version => .error .unwantedValue

/-- The options given, with their values. -/
abbrev Given (κ : Type) := List (κ × Value)

/-- How far a scan is. -/
structure Scan (κ : Type) where
  given : Given κ
  /-- The last option that takes a value, with the value once it has come. -/
  pending : Option (OptionSpec κ × Option String)
  /-- Two hyphens came, after which nothing is an option. -/
  optionsOver : Bool
deriving Inhabited

namespace Scan

variable {κ : Type} [DecidableEq κ]

/-- The scan before the first argument. -/
def start : Scan κ := ⟨[], none, false⟩

/-- The given options with one more; none may come twice. -/
def add (given : Given κ) (key : κ) (value : Except Refusal Value) : Except Refusal (Given κ) :=
  if given.any fun g => g.1 = key then .error .conflict
  else value.map fun v => given ++ [(key, v)]

/-- The given options with the one that waits for its value. -/
def settle (s : Scan κ) : Except Refusal (Given κ) :=
  match s.pending with
  | none => .ok s.given
  | some (_, none) => .error .noValue
  | some (spec, some text) => add s.given spec.key (spec.takes.read text)

/-- Takes an option that has no value beside it. -/
def takeBare (s : Scan κ) (spec : OptionSpec κ) : Except Refusal (Scan κ) := do
  let given ← s.settle
  match spec.takes with
  | .nothing =>
    let given ← add given spec.key (.ok .on)
    return { s with given := given, pending := none }
  | .help => throw .help
  | .version => throw .version
  | _ => return { s with given := given, pending := some (spec, none) }

/-- Takes an option with a value in the same argument. -/
def takeAttached (s : Scan κ) (spec : OptionSpec κ) (text : String) : Except Refusal (Scan κ) :=
  match spec.takes with
  | .nothing | .help | .version => .error .unwantedValue
  | takes => do
    let given ← s.settle
    let given ← add given spec.key (takes.read text)
    return { s with given := given, pending := none }

/-- Takes an argument that begins with two hyphens, without them. -/
def takeLong (specs : List (OptionSpec κ)) (s : Scan κ) (cs : List Char) :
    Except Refusal (Scan κ) :=
  let name := String.ofList (cs.takeWhile (· ≠ '='))
  match specs.find? fun spec => spec.long = name with
  | none => .error .unknownArgument
  | some spec =>
    match cs.dropWhile (· ≠ '=') with
    | [] => s.takeBare spec
    | _ :: value => s.takeAttached spec (String.ofList value)

/-- Takes an argument that begins with one hyphen, without it: letters of options that take nothing,
the last of which may be one that takes a value. -/
def takeShort (specs : List (OptionSpec κ)) (s : Scan κ) : List Char → Except Refusal (Scan κ)
  | [] => .ok s
  | c :: rest =>
    match specs.find? fun spec => spec.short = some c with
    | none => .error .unknownArgument
    | some spec =>
      match spec.takes with
      | .nothing | .help | .version => do
        let s ← s.takeBare spec
        takeShort specs s rest
      | _ =>
        match rest with
        | [] => s.takeBare spec
        | '=' :: value => s.takeAttached spec (String.ofList value)
        | value => s.takeAttached spec (String.ofList value)

/-- Takes one argument, unless it is neither an option nor a value. -/
def step (specs : List (OptionSpec κ)) (s : Scan κ) (argument : String) :
    Except Refusal (Option (Scan κ)) :=
  if s.optionsOver then .ok none
  else match argument.toList with
  | ['-', '-'] => .ok (some { s with optionsOver := true })
  | '-' :: '-' :: cs => (s.takeLong specs cs).map some
  | '-' :: c :: cs => (s.takeShort specs (c :: cs)).map some
  | _ =>
    match s.pending with
    | some (spec, none) => .ok (some { s with pending := some (spec, some argument) })
    | _ => .ok none

/-- Takes arguments up to one that is neither an option nor a value, which is given back with those
after it. -/
def run (specs : List (OptionSpec κ)) (s : Scan κ) :
    List String → Except Refusal (Scan κ × List String)
  | [] => .ok (s, [])
  | argument :: rest => do
    match ← s.step specs argument with
    | none => return (s, argument :: rest)
    | some s => run specs s rest

/-- The given options with those that environment variables stand in for, in the order in which the
program has them. A variable for an option that takes nothing is `true` or `false`. -/
def addEnvironment (environment : String → Option String) (given : Given κ) :
    List (OptionSpec κ) → Except Refusal (Given κ)
  | [] => .ok given
  | spec :: rest =>
    match spec.variableName.bind environment with
    | none => addEnvironment environment given rest
    | some text =>
      if given.any fun g => g.1 = spec.key then addEnvironment environment given rest
      else match spec.takes, text with
      | .nothing, "true" => addEnvironment environment (given ++ [(spec.key, .on)]) rest
      | .nothing, "false" => addEnvironment environment given rest
      | .nothing, _ => .error .noValue
      | takes, text => do
        let value ← takes.read text
        addEnvironment environment (given ++ [(spec.key, value)]) rest

end Scan

end TypedEntities.CommandLine
