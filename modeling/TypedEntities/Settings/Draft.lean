import TypedEntities.Settings.Basic
import TypedEntities.Settings.File

/-!
# Drafts of settings

Settings are put together from several sources: what is set on a draft stays, a settings file fills
in what is not set yet, and what nobody sets has a default or is missing.
-/

namespace TypedEntities

/-- Settings of which some are not set yet. No ignored list counts as not set. -/
structure Draft where
  server : Option String
  sharedSpace : Option Nat
  workspace : Option Nat
  clientId : Option String
  clientSecret : Option String
  trustAllCertificates : Option Bool
  apiMode : Option ApiMode
  ignoredLists : TextSet
  outputDirectory : Option String
  package : Option String
  /-- In whole milliseconds. -/
  timeout : Option Nat
deriving Inhabited

/-- The ids in a text with commas between, without blanks around them and without empty ones. -/
def parseIgnoredLists (text : String) : TextSet :=
  TextSet.ofList <|
    (((text.toList.splitOn ',').map Text.trim).filter fun id => !id.isEmpty).map String.ofList

namespace Draft

/-- The draft in which nothing is set. -/
def empty : Draft := ⟨none, none, none, none, none, none, none, Table.empty, none, none, none⟩

/-- The package that is written when no other is set. -/
def defaultPackage : String := "com.hpe.adm.nga.sdk"

/-- The directory that is written to when no other is set. -/
def defaultOutputDirectory : String := "generated"

/-- One minute. -/
def defaultTimeout : Nat := 60000

/-! ## Setting -/

/-- Sets the server; slashes at its end are taken off. -/
def setServer (d : Draft) (server : String) : Draft :=
  { d with server := some (String.ofList (Text.trimEnd '/' server.toList)) }

def setSharedSpace (d : Draft) (id : Nat) : Draft := { d with sharedSpace := some id }

def setWorkspace (d : Draft) (id : Nat) : Draft := { d with workspace := some id }

def setClientId (d : Draft) (id : String) : Draft := { d with clientId := some id }

def setClientSecret (d : Draft) (secret : String) : Draft := { d with clientSecret := some secret }

/-- Sets whether any certificate is trusted. -/
def setTrustAllCertificates (d : Draft) (trust : Bool) : Draft :=
  { d with trustAllCertificates := some trust }

/-- Sets the interface of the server that sessions use. -/
def setApiMode (d : Draft) (mode : ApiMode) : Draft := { d with apiMode := some mode }

/-- Sets the ignored lists from a text with commas between the ids. -/
def setIgnoredLists (d : Draft) (ids : String) : Draft :=
  { d with ignoredLists := parseIgnoredLists ids }

def setOutputDirectory (d : Draft) (directory : String) : Draft :=
  { d with outputDirectory := some directory }

def setPackage (d : Draft) (package : String) : Draft := { d with package := some package }

/-- Sets how long a request may take, in whole milliseconds. -/
def setTimeout (d : Draft) (milliseconds : Nat) : Draft := { d with timeout := some milliseconds }

/-! ## Filling in and finishing -/

/-- The draft with what a settings file says for the settings that are not set yet. -/
def fill (d : Draft) (file : SettingsFile) : Draft where
  server := d.server <|> file.server
  sharedSpace := d.sharedSpace <|> file.sharedSpace
  workspace := d.workspace <|> file.workspace
  clientId := d.clientId <|> file.clientId
  clientSecret := d.clientSecret <|> file.clientSecret
  trustAllCertificates := d.trustAllCertificates <|> file.trustAllCertificates
  apiMode := d.apiMode <|> file.technicalPreview.map ApiMode.ofPreview
  ignoredLists := if d.ignoredLists.isEmpty then TextSet.ofList file.ignoredLists else d.ignoredLists
  outputDirectory := d.outputDirectory <|> file.outputDirectory
  package := d.package <|> file.package
  timeout := d.timeout <|> file.timeoutSeconds.map (1000 * ·)

/-- The value of a setting that has to be set. -/
def need {α : Type} (setting : String) : Option α → Except Failure α
  | some a => .ok a
  | none => .error (.configuration s!"missing required setting '{setting}'")

/-- The settings of a draft before they are checked. -/
def complete (d : Draft) : Except Failure Settings := do
  let server ← need "server" d.server
  let sharedSpace ← need "shared_space" d.sharedSpace
  let workspace ← need "workspace" d.workspace
  let clientId ← need "client_id" d.clientId
  let clientSecret ← need "client_secret" d.clientSecret
  return {
    server := server
    sharedSpace := sharedSpace
    workspace := workspace
    credentials := ⟨clientId, clientSecret⟩
    trustAllCertificates := d.trustAllCertificates.getD false
    apiMode := d.apiMode.getD .default
    ignoredLists := d.ignoredLists
    outputDirectory := d.outputDirectory.getD defaultOutputDirectory
    package := d.package.getD defaultPackage
    timeout := d.timeout.getD defaultTimeout }

/-- The settings of a draft: first what has to be set is looked for, then the rules are checked. -/
def finish (d : Draft) : Except Failure Settings := d.complete.bind Settings.check

end Draft

end TypedEntities
