import TypedEntities.CommandLine.Scan
import TypedEntities.Settings.Draft

/-!
# Arguments

The commands of the program with their options, and the settings that the options of `generate` make.
An option given wins over its environment variable, which wins over the settings file.
-/

namespace TypedEntities.CommandLine

/-- An option of the program. -/
inductive OptionKey
  | config
  | server
  | sharedSpace
  | workspace
  | clientId
  | clientSecret
  | trustAllCerts
  | techPreview
  | ignoredListIds
  | output
  | package
  | timeout
  | verbose
  | format
  | help
  | version
deriving DecidableEq, Repr, Inhabited

/-- The options of `generate`, in the order in which their environment variables are looked at. -/
def generateOptions : List (OptionSpec OptionKey) :=
  [⟨.config, "config", none, .path, some "OCTANE_MODELGEN_CONFIG"⟩,
   ⟨.server, "server", none, .text, some "OCTANE_SERVER"⟩,
   ⟨.sharedSpace, "shared-space", none, .number, some "OCTANE_SHARED_SPACE"⟩,
   ⟨.workspace, "workspace", none, .number, some "OCTANE_WORKSPACE"⟩,
   ⟨.clientId, "client-id", none, .text, some "OCTANE_CLIENT_ID"⟩,
   ⟨.clientSecret, "client-secret", none, .text, some "OCTANE_CLIENT_SECRET"⟩,
   ⟨.trustAllCerts, "trust-all-certs", none, .nothing, some "OCTANE_TRUST_ALL_CERTS"⟩,
   ⟨.techPreview, "tech-preview", none, .nothing, some "OCTANE_TECH_PREVIEW"⟩,
   ⟨.ignoredListIds, "ignored-list-ids", none, .text, some "OCTANE_IGNORED_LIST_IDS"⟩,
   ⟨.output, "output", some 'o', .path, some "OCTANE_OUTPUT_DIR"⟩,
   ⟨.package, "package", none, .text, some "OCTANE_PACKAGE"⟩,
   ⟨.timeout, "timeout", none, .number, some "OCTANE_TIMEOUT"⟩]

/-- Asking for help. -/
def helpOption : OptionSpec OptionKey := ⟨.help, "help", some 'h', .help, none⟩

/-- Asking for the version. -/
def versionOption : OptionSpec OptionKey := ⟨.version, "version", some 'V', .version, none⟩

/-- The options of every command. -/
def globalOptions : List (OptionSpec OptionKey) :=
  [⟨.verbose, "verbose", some 'v', .nothing, none⟩, ⟨.format, "format", none, .text, none⟩]

/-- The options of the program with their values. -/
abbrev Arguments := Given OptionKey

/-- The value of an option, if it is given. -/
def valueOf? (a : Arguments) (key : OptionKey) : Option Value :=
  (a.find? fun g => g.1 = key).map Prod.snd

/-- The text that an option has. -/
def textOf? (a : Arguments) (key : OptionKey) : Option String :=
  match valueOf? a key with
  | some (.text s) => some s
  | _ => none

/-- The number that an option has. -/
def numberOf? (a : Arguments) (key : OptionKey) : Option Nat :=
  match valueOf? a key with
  | some (.number n) => some n
  | _ => none

/-- Whether an option that takes nothing is given. -/
def isOn (a : Arguments) (key : OptionKey) : Bool := valueOf? a key = some .on

/-- The options of a command among its arguments, all of which have to be options or values, and those
that the environment stands in for. -/
def parseOptions (specs : List (OptionSpec OptionKey)) (environment : String → Option String)
    (arguments : List String) : Except Refusal Arguments := do
  let (s, rest) ← Scan.run specs Scan.start arguments
  if rest.isEmpty then
    let given ← s.settle
    Scan.addEnvironment environment given specs
  else throw .unknownArgument

/-! ## Settings -/

/-- Sets something if it is given. -/
def setIf {α : Type} (value : Option α) (set : Draft → α → Draft) (d : Draft) : Draft :=
  match value with
  | some a => set d a
  | none => d

/-- The draft of settings that options make. An option that takes nothing and is not given leaves its
setting open. -/
def draftOf (a : Arguments) : Draft :=
  Draft.empty
  |> setIf (textOf? a .server) Draft.setServer
  |> setIf (numberOf? a .sharedSpace) Draft.setSharedSpace
  |> setIf (numberOf? a .workspace) Draft.setWorkspace
  |> setIf (textOf? a .clientId) Draft.setClientId
  |> setIf (textOf? a .clientSecret) Draft.setClientSecret
  |> setIf (if isOn a .trustAllCerts then some true else none) Draft.setTrustAllCertificates
  |> setIf (if isOn a .techPreview then some ApiMode.technicalPreview else none) Draft.setApiMode
  |> setIf (textOf? a .ignoredListIds) Draft.setIgnoredLists
  |> setIf (textOf? a .output) Draft.setOutputDirectory
  |> setIf (textOf? a .package) Draft.setPackage
  |> setIf ((numberOf? a .timeout).map (1000 * ·)) Draft.setTimeout

/-- What the program can read: which paths are files, and the text of those that hold text. -/
structure Disk where
  isFile : String → Bool
  text? : String → Option String

/-- The settings file at a path. -/
def Disk.settingsFile (disk : Disk) (path : String) : Except Failure SettingsFile :=
  match disk.text? path with
  | some text => SettingsFile.parse text
  | none => .error (.io path "the file cannot be read")

/-- The settings file that the options name, or else the default one if it is there. -/
def chooseFile (disk : Disk) (defaultPath : Option String) (a : Arguments) :
    Except Failure SettingsFile :=
  match textOf? a .config with
  | some path => disk.settingsFile path
  | none =>
    match defaultPath.filter disk.isFile with
    | some path => disk.settingsFile path
    | none => .ok SettingsFile.empty

/-- The settings of a command line. -/
def settingsOf (disk : Disk) (defaultPath : Option String) (a : Arguments) :
    Except Failure Settings := do
  let file ← chooseFile disk defaultPath a
  ((draftOf a).fill file).finish

end TypedEntities.CommandLine
