import TypedEntities.CommandLine.Arguments

/-!
# Commands

The program has a command that generates and one that completes command lines in a shell. Some options
belong to every command and may stand before or after its name.
-/

namespace TypedEntities.CommandLine

/-- What the program is asked to do. -/
inductive Command
  | generate (arguments : Arguments)
  /-- Writes the completions for a shell. -/
  | completions (shell : String)
deriving DecidableEq, Repr, Inhabited

/-- A command with the name of the form in which its result is shown. -/
structure Invocation where
  command : Command
  format : String
deriving DecidableEq, Repr, Inhabited

/-- The shells that there are completions for. -/
def shells : List String := ["bash", "elvish", "fish", "powershell", "zsh"]

/-- The form that is shown when no other is asked for. -/
def defaultFormat : String := "pretty"

/-- The options of `completions` and its shell. -/
def parseCompletions (arguments : List String) : Except Refusal (Arguments × String) := do
  let specs := globalOptions ++ [helpOption]
  match ← Scan.run specs Scan.start arguments with
  | (s, []) =>
    let _ ← s.settle
    throw .missingArgument
  | (s, shell :: rest) =>
    let given ← s.settle
    if shell ∉ shells then throw .noValue
    let (s, rest) ← Scan.run specs { s with given := given, pending := none } rest
    if !rest.isEmpty then throw .unknownArgument
    let given ← s.settle
    return (given, shell)

/-- The command with a name, and its options. -/
def parseCommand (environment : String → Option String) (name : String) (arguments : List String) :
    Except Refusal (Command × Arguments) :=
  match name with
  | "generate" => do
    let specs := generateOptions ++ globalOptions ++ [helpOption]
    let given ← parseOptions specs environment arguments
    return (.generate given, given)
  | "completions" => do
    let (given, shell) ← parseCompletions arguments
    return (.completions shell, given)
  | "help" =>
    match arguments with
    | [] => .error .help
    | topic :: _ =>
      .error (if topic ∈ ["generate", "completions", "help"] then .help else .unknownCommand)
  | _ => .error .unknownCommand

/-- What the arguments of the program ask for. An option after the name of the command wins over the
same option before it. -/
def parse (environment : String → Option String) (arguments : List String) :
    Except Refusal Invocation := do
  let (s, rest) ← Scan.run (globalOptions ++ [helpOption, versionOption]) Scan.start arguments
  match rest with
  | [] =>
    let _ ← s.settle
    throw .noCommand
  | name :: rest =>
    if s.optionsOver then throw .unknownArgument
    let (command, inner) ← parseCommand environment name rest
    let outer ← s.settle
    let format := ((textOf? inner .format) <|> (textOf? outer .format)).getD defaultFormat
    return ⟨command, format⟩

end TypedEntities.CommandLine
