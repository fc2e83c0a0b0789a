import TypedEntities.Generation.Parties
import TypedEntities.Metadata.Codec
import TypedEntities.Remote.Page
import TypedEntities.Remote.Request

/-!
# The client of a server

Answers the calls of a run by requests to a server. The client remembers the mode of its session,
which every request but a sign-in carries; a sign-in carries the mode that it asks for. The mode
changes only when a sign-in or a sign-out succeeds. Collections are read page by page.
-/

namespace TypedEntities.Remote

open TypedEntities.Metadata

/-- Where the workspace is and how it is read. -/
structure Workspace where
  server : String
  sharedSpace : Nat
  workspace : Nat
  /-- How many items are asked for at a time. -/
  pageSize : Nat
deriving DecidableEq, Repr, Inhabited

/-- A session, with the state of what carries its requests. -/
structure Session (ω : Type) where
  mode : ApiMode
  wire : ω
deriving Inhabited

namespace Workspace

/-- The workspace of settings. -/
def ofSettings (s : Settings) : Workspace := ⟨s.server, s.sharedSpace, s.workspace, 500⟩

/-- The workspace read with another page size, which is at least one. -/
def withPageSize (w : Workspace) (pageSize : Nat) : Workspace :=
  { w with pageSize := max pageSize 1 }

/-- The address of a path in the workspace; slashes at the start of the path are left out. -/
def url (w : Workspace) (path : String) : String :=
  s!"{w.server}/api/shared_spaces/{w.sharedSpace}/workspaces/{w.workspace}/"
    ++ String.ofList (path.toList.dropWhile (· = '/'))

/-! ## Single requests -/

variable {ω : Type}

/-- Sends a request. An endpoint stands for it in failures. -/
def send (w : Workspace) (x : Exchange ω) (endpoint : String) (r : Request) (wire : ω) :
    Except Failure String × ω :=
  match x r wire with
  | (.none cause, wire) => (.error (.connection w.server cause), wire)
  | (.answer status body, wire) =>
    if isSuccess status then (.ok body, wire) else (.error (.request endpoint status body), wire)

/-- Signs in. -/
def signIn (w : Workspace) (x : Exchange ω) (credentials : Credentials) (mode : ApiMode)
    (s : Session ω) : Except Failure Unit × Session ω :=
  let request : Request :=
    { method := .post
      url := w.server ++ "/authentication/sign_in"
      parameters := []
      mode := mode
      body := some (.object [("client_id", .text credentials.clientId),
        ("client_secret", .text credentials.secret)]) }
  match x request s.wire with
  | (.none cause, wire) => (.error (.connection w.server cause), { s with wire := wire })
  | (.answer status body, wire) =>
    if isSuccess status then (.ok (), ⟨mode, wire⟩)
    else (.error (.authentication w.server status body), { s with wire := wire })

/-- Signs out. -/
def signOut (w : Workspace) (x : Exchange ω) (s : Session ω) : Except Failure Unit × Session ω :=
  let request : Request := ⟨.post, w.server ++ "/authentication/sign_out", [], s.mode, none⟩
  match w.send x "authentication/sign_out" request s.wire with
  | (.ok _, wire) => (.ok (), ⟨.default, wire⟩)
  | (.error f, wire) => (.error f, { s with wire := wire })

/-- The failure of an answer that cannot be read. -/
def undecodable (path : String) : Failure :=
  .serialization s!"failed to decode response of {path}: error decoding response body"

/-- Reads one page. -/
def page {α : Type} (w : Workspace) (x : Exchange ω) (item : Json.Decoder α) (path : String)
    (parameters : List (String × String)) (s : Session ω) : Except Failure (Page α) × Session ω :=
  match w.send x path ⟨.get, w.url path, parameters, s.mode, none⟩ s.wire with
  | (.error f, wire) => (.error f, { s with wire := wire })
  | (.ok body, wire) =>
    match Page.parse? item body with
    | some p => (.ok p, { s with wire := wire })
    | none => (.error (undecodable path), { s with wire := wire })

/-! ## Collections -/

/-- A filter as a parameter has it: between quotes. -/
def quoted (filter : Filter) : String := "\"" ++ filter.text ++ "\""

/-- The parameters for the items of a selection from an offset on. -/
def parameters (w : Workspace) (selection : Selection) (offset : Nat) : List (String × String) :=
  (if selection.fields.isEmpty then [] else [("fields", ",".intercalate selection.fields)])
    ++ (selection.filter.map fun f => ("query", quoted f)).toList
    ++ [("limit", toString w.pageSize), ("offset", toString offset)]

/-- Reads the items of a selection from an offset on, until a page is the last. Offsets grow and stay
below the greatest total that a page can tell. -/
def allFrom {α : Type} (w : Workspace) (x : Exchange ω) (item : Json.Decoder α) (path : String)
    (selection : Selection) (offset : Nat) (s : Session ω) : Except Failure (List α) × Session ω :=
  match w.page x item path (w.parameters selection offset) s with
  | (.error f, s) => (.error f, s)
  | (.ok p, s) =>
    if _h : p.hasMore offset = true then
      match w.allFrom x item path selection (offset + p.items.length) s with
      | (.error f, s) => (.error f, s)
      | (.ok rest, s) => (.ok (p.items ++ rest), s)
    else (.ok p.items, s)
termination_by 0x10000000000000000 - offset
decreasing_by
  have := Page.lt_of_hasMore ‹p.hasMore offset = true›
  omega

/-! ## Calls -/

/-- The parameters that ask for what has a text in a field. -/
def whereEqual (field value : String) : List (String × String) :=
  [("query", quoted (.equal field (.text value)))]

/-- The items of one page, as the answer. -/
def items {α : Type} (result : Except Failure (Page α) × Session ω) :
    Except Failure (List α) × Session ω :=
  (result.1.map Page.items, result.2)

/-- The entity type with a name among those of a page. -/
def named (name : String) (page : Page Entity) : Except Failure Entity :=
  match page.items.find? fun e => e.name = name with
  | some e => .ok e
  | none => .error (.notFound s!"entity type '{name}'")

/-- Answers the calls of a run. -/
def client (w : Workspace) (x : Exchange ω) : Client (Session ω)
  | .signIn credentials mode, s => w.signIn x credentials mode s
  | .signOut, s => w.signOut x s
  | .entityTypes, s => items (w.page x Entity.decode "metadata/entities" [] s)
  | .entityType name, s =>
    let (result, s) := w.page x Entity.decode "metadata/entities" (whereEqual "name" name) s
    (result.bind (named name), s)
  | .fields entity, s =>
    items (w.page x Field.decode "metadata/fields" (whereEqual "entity_name" entity) s)
  | .query collection selection, s => w.allFrom x Record.decode collection selection 0 s

/-- A session before the first sign-in. -/
def start (wire : ω) : Session ω := ⟨.default, wire⟩

end Workspace

end TypedEntities.Remote
