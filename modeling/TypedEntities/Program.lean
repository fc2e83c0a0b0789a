import TypedEntities.CommandLine.Command
import TypedEntities.Generation.Parties
import TypedEntities.Remote.Client
import TypedEntities.Summary

/-!
# The program

What comes of the arguments of the program: an exit code, a text to print, and the files written. The
arguments are read first, then the form of the summary, then the settings; each can end the program.
-/

namespace TypedEntities

open TypedEntities.CommandLine

/-- What a program shows when it ends. -/
structure Outcome where
  exit : ExitCode
  output : String
deriving DecidableEq, Repr, Inhabited

/-- What the program finds around it. -/
structure Surroundings where
  environment : String → Option String
  disk : Disk
  /-- Where programs keep their settings. -/
  configDirectory : Option String
  /-- Whether colours are shown. -/
  colours : Bool

namespace Program

def name : String := "octane-modelgen"

def version : String := "0.1.0"

/-- The default settings file, below the directory of settings. -/
def settingsFile : String := name ++ "/config.toml"

/-- The path of the default settings file. -/
def defaultSettingsFile (s : Surroundings) : Option String :=
  s.configDirectory.map fun directory => Path.join directory settingsFile

/-- The end of a program whose arguments are refused or ask for help. -/
def refuse : Refusal → Outcome
  | .version => ⟨.success, name ++ " " ++ version ++ "\n"⟩
  | .help => ⟨.success, ""⟩
  | _ => ⟨.invalidInput, ""⟩

/-- The end of a program that fails. -/
def fail (f : Failure) : Outcome := ⟨.ofFailure f, ""⟩

variable {ω τ : Type}

/-- Generates the sources: `exchange` carries requests, and the files go to the sink for the output
directory. -/
def generate (s : Surroundings) (exchange : Remote.Exchange ω) (wire : ω)
    (sink : (directory : String) → Sink τ) (format : OutputFormat) (arguments : Arguments)
    (files : τ) : Outcome × τ :=
  match settingsOf s.disk (defaultSettingsFile s) arguments with
  | .error f => (fail f, files)
  | .ok settings =>
    let generator : Generator (Remote.Session ω) τ :=
      { settings := settings
        client := (Remote.Workspace.ofSettings settings).client exchange
        render := fun kind => Engine.standard.render kind.templateName
        sink := sink settings.outputDirectory }
    match generator.start (Remote.Workspace.start wire) files with
    | (.error f, progress) => (fail f, progress.sink)
    | (.ok report, progress) =>
      (⟨.success, (Summary.of settings report).text s.colours format ++ "\n"⟩, progress.sink)

/-- The settings files that the program may look at, the one it is told of first. -/
def settingsFiles (environment : String → Option String) (configDirectory : Option String)
    (arguments : List String) : List String :=
  let named :=
    match CommandLine.parse environment arguments with
    | .ok ⟨.generate given, _⟩ => (textOf? given .config).toList
    | _ => []
  named ++ (configDirectory.map fun directory => Path.join directory settingsFile).toList

/-- Runs the program. -/
def run (s : Surroundings) (exchange : Remote.Exchange ω) (wire : ω)
    (sink : (directory : String) → Sink τ) (arguments : List String) (files : τ) : Outcome × τ :=
  match CommandLine.parse s.environment arguments with
  | .error refusal => (refuse refusal, files)
  | .ok ⟨command, format⟩ =>
    match OutputFormat.parse format with
    | .error _ => (⟨.failure, ""⟩, files)
    | .ok format =>
      match command with
      | .completions _ => (⟨.success, ""⟩, files)
      | .generate arguments => generate s exchange wire sink format arguments files

end Program

end TypedEntities
