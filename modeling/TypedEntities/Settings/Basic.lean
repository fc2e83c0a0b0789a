import TypedEntities.Failure
import TypedEntities.Table
import TypedEntities.Text.Basic
import TypedEntities.Text.Quoted

/-!
# Settings

What a run is told: the server and the workspace on it, the credentials, and where and how the
sources are written. `Settings.check` says what is not allowed; the first thing in its order that is
not allowed is the one reported.
-/

namespace TypedEntities

/-- Which interface of the server a session uses. The technical preview has entity types that the
default interface does not show. -/
inductive ApiMode
  | default
  | technicalPreview
deriving DecidableEq, Repr, Inhabited

/-- The mode that a switch for the technical preview asks for. -/
def ApiMode.ofPreview (enabled : Bool) : ApiMode := if enabled then .technicalPreview else .default

def ApiMode.text : ApiMode → String
  | .default => "default"
  | .technicalPreview => "technical-preview"

/-- Who signs in. -/
structure Credentials where
  clientId : String
  secret : String
deriving DecidableEq, Inhabited

/-- The credentials for a log: the secret is not shown. -/
def Credentials.shown (c : Credentials) : String :=
  "Credentials \x7b client_id: " ++ Text.showText c.clientId
    ++ ", client_secret: \"[REDACTED]\" \x7d"

/-- A set of texts. -/
abbrev TextSet := Table String Unit

/-- The set of the texts of a list. -/
def TextSet.ofList (l : List String) : TextSet := Table.ofList (l.map (·, ()))

/-- What a run is told. -/
structure Settings where
  server : String
  sharedSpace : Nat
  workspace : Nat
  credentials : Credentials
  /-- Certificates are not checked. -/
  trustAllCertificates : Bool
  apiMode : ApiMode
  /-- The ids of the list roots to leave out. -/
  ignoredLists : TextSet
  outputDirectory : String
  package : String
  /-- How long a request may take, in whole milliseconds. -/
  timeout : Nat
deriving Inhabited

namespace Settings

/-- Whether a text is one segment of a package name: a letter or an underscore, then letters, digits
and underscores. -/
def isPackageSegment : List Char → Bool
  | [] => false
  | c :: rest => (c.isAlpha || c == '_') && rest.all fun d => d.isAlphanum || d == '_'

/-- Whether a text is a package name: segments with points between. -/
def isPackage (package : String) : Bool := (package.toList.splitOn '.').all isPackageSegment

/-- Whether a text begins as the address of a web server does. -/
def isWebAddress (server : String) : Bool :=
  "http://".toList.isPrefixOf server.toList || "https://".toList.isPrefixOf server.toList

/-- The rules for settings, in the order in which they are checked: whether each is kept, the setting
it is about and the reason given when it is not. -/
def rules (s : Settings) : List (Bool × String × String) :=
  [(isWebAddress s.server, "server", "must start with http:// or https://"),
   (s.sharedSpace ≠ 0, "shared_space", "must be a positive id"),
   (s.workspace ≠ 0, "workspace", "must be a positive id"),
   (!(Text.trim s.credentials.clientId.toList).isEmpty, "client_id", "cannot be empty"),
   (s.credentials.secret ≠ "", "client_secret", "cannot be empty"),
   (isPackage s.package, "package", s!"'{s.package}' is not a valid Java package name"),
   (s.timeout ≠ 0, "request_timeout", "must be greater than zero")]

/-- The failure for the first rule that is not kept, if there is one. -/
def fault? (s : Settings) : Option Failure :=
  (s.rules.find? fun rule => !rule.1).map fun rule => .validation rule.2.1 rule.2.2

/-- The settings, provided all rules are kept. -/
def check (s : Settings) : Except Failure Settings :=
  match s.fault? with
  | some f => .error f
  | none => .ok s

/-- The directory of the package: its segments with slashes between. -/
def packagePath (s : Settings) : String :=
  String.ofList (s.package.toList.map fun c => if c = '.' then '/' else c)

end Settings

end TypedEntities
