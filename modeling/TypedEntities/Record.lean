import TypedEntities.Failure
import TypedEntities.Json.Decode
import TypedEntities.Json.Printer
import TypedEntities.Metadata.Node

/-!
# Records

An entity as a collection sends it: an object whose fields have no fixed type. List nodes and phases
are read from records. The server sends some ids as numbers, so a text field may hold a number too.
-/

namespace TypedEntities

open TypedEntities.Metadata

/-- An entity as a collection sends it; the fields have different names, in ascending order. -/
structure Record where
  fields : List (String × Json)
deriving Repr, Inhabited

namespace Record

/-- The record that an object is. -/
def ofJson : Json → Except Failure Record
  | .object fields => .ok ⟨fields⟩
  | v => .error (.serialization s!"expected entity object, got {v.compact}")

/-- Reads a record from an object. -/
def decode : Json.Decoder Record := fun levels t =>
  match t.value? levels with
  | some (.object fields) => some ⟨fields⟩
  | _ => none

def toJson (r : Record) : Json := .object r.fields

/-- The value of a field. -/
def get? (r : Record) (field : String) : Option Json := r.toJson.member? field

/-- The text of a field that holds a text. -/
def text? (r : Record) (field : String) : Option String :=
  match r.get? field with
  | some (.text s) => some s
  | _ => none

/-- The entity type that the record names, for messages. -/
def entityType (r : Record) : String := (r.text? "type").getD "entity"

/-- The failure of a field that does not hold what is needed. -/
def missing (r : Record) (field kind : String) : Failure :=
  .metadata r.entityType field s!"missing {kind} value"

/-- A text, or a number as a text. -/
def idText? : Json → Option String
  | .text s => some s
  | .number n => some n.text
  | _ => none

/-- The text of a field that has to hold a text or a number. -/
def text (r : Record) (field : String) : Except Failure String :=
  match (r.get? field).bind idText? with
  | some s => .ok s
  | none => .error (r.missing field "string")

/-- The integer of a field that has to hold one which fits 64 bits with a sign. -/
def integer (r : Record) (field : String) : Except Failure Int :=
  match r.get? field with
  | some (.number (.integer n)) => if n < 0x8000000000000000 then .ok n else .error (r.missing field "integer")
  | _ => .error (r.missing field "integer")

/-- The id of the entity that a field refers to. -/
def referenceId? (r : Record) (field : String) : Option String :=
  ((r.get? field).bind (Json.member? "id")).bind idText?

/-- The activity of a record; its number has to be there and to be known. -/
def activity (r : Record) : Except Failure Activity := do
  let level ← r.integer "activity_level"
  match Activity.ofLevel? level with
  | some a => .ok a
  | none => .error (.metadata r.entityType "activity_level" s!"unknown activity level {level}")

/-- The list node that a record is. -/
def listNode (r : Record) : Except Failure ListNode := do
  let activity ← r.activity
  let id ← r.text "id"
  let name ← r.text "name"
  return ⟨id, name, r.text? "logical_name", activity, r.referenceId? "list_root"⟩

/-- The phase that a record is. -/
def phase (r : Record) : Except Failure Phase := do
  let id ← r.text "id"
  let name ← r.text "name"
  let entity ← r.text "entity"
  return ⟨id, name, entity⟩

end Record

end TypedEntities
