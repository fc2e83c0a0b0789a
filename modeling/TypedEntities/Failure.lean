/-!
# Failures

Everything that can go wrong from reading the settings to writing the last file, with the text that
a user sees and the exit code of the program. A failure belongs to one kind, and the kind
decides the code.
-/

namespace TypedEntities

/-- Why a run fails. -/
inductive Failure
  /-- No answer from the server; `cause` says why. -/
  | connection (server cause : String)
  /-- The server refuses the sign-in. -/
  | authentication (server : String) (status : Nat) (message : String)
  /-- The server answers a request with an error. -/
  | request (endpoint : String) (status : Nat) (message : String)
  /-- The server does not have what was asked for. -/
  | notFound (resource : String)
  /-- A setting is missing or the settings cannot be read. -/
  | configuration (message : String)
  /-- Data cannot be read as, or written to, its form. -/
  | serialization (message : String)
  /-- An argument of the program has no meaning. -/
  | argument (message : String)
  /-- A setting has a value that is not allowed. -/
  | validation (setting reason : String)
  /-- What the server says about a field makes no sense. -/
  | metadata (entity field reason : String)
  /-- A field refers to a list that was not read. -/
  | unknownList (entity field logicalName : String)
  /-- A template cannot be read or rendered. -/
  | template (name message : String)
  /-- A file cannot be read or written; `cause` is the system's reason. -/
  | io (path cause : String)
deriving DecidableEq, Repr, Inhabited

namespace Failure

/-- The text for the user. -/
def message : Failure → String
  | connection server _ => s!"Octane server connection failed: {server}"
  | authentication server status text =>
    s!"Authentication against {server} failed with status {status}: {text}"
  | request endpoint status text => s!"Request to {endpoint} failed with status {status}: {text}"
  | notFound resource => s!"Resource not found: {resource}"
  | configuration text => s!"Configuration error: {text}"
  | serialization text => s!"Serialization error: {text}"
  | argument text => s!"Invalid argument: {text}"
  | validation setting reason => s!"Validation error in {setting}: {reason}"
  | metadata entity field reason => s!"Inconsistent metadata for {entity}.{field}: {reason}"
  | unknownList entity field logicalName =>
    s!"Field {entity}.{field} references unknown list '{logicalName}'"
  | template name text => s!"Template '{name}' failed: {text}"
  | io path cause => s!"I/O error on {path}: {cause}"

/-- The failure below this one, if there is one. -/
def cause? : Failure → Option String
  | connection _ cause => some cause
  | io _ cause => some cause
  | _ => none

/-- What kind of thing went wrong. -/
inductive Kind
  | connection
  | notFound
  | configuration
  | metadata
  | template
  | io
  | serialization
deriving DecidableEq, Repr, Inhabited

/-- The kind of a failure. -/
def kind : Failure → Kind
  | connection .. | authentication .. | request .. => .connection
  | notFound .. => .notFound
  | configuration .. | validation .. | argument .. => .configuration
  | metadata .. | unknownList .. => .metadata
  | template .. => .template
  | io .. => .io
  | serialization .. => .serialization

end Failure

/-- The number that a program ends with. -/
structure ExitCode where
  code : Int
deriving DecidableEq, Repr, Inhabited

namespace ExitCode

def success : ExitCode := ⟨0⟩

/-- The code of a failure that no other code stands for. -/
def failure : ExitCode := ⟨1⟩

/-- The code of settings that are missing or not allowed. -/
def invalidInput : ExitCode := ⟨2⟩

/-- The code of a server that does not answer as it should. -/
def serverFailure : ExitCode := ⟨3⟩

/-- The code of metadata that makes no sense. -/
def metadataFailure : ExitCode := ⟨4⟩

def isSuccess (e : ExitCode) : Bool := e.code == 0

def text (e : ExitCode) : String := toString e.code

/-- The code for a failure. -/
def ofFailure (f : Failure) : ExitCode :=
  match f.kind with
  | .connection => serverFailure
  | .configuration => invalidInput
  | .metadata => metadataFailure
  | .notFound | .template | .io | .serialization => failure

end ExitCode

end TypedEntities
