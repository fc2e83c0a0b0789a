import TypedEntities.Json.Decode
import TypedEntities.Metadata.Entity
import TypedEntities.Metadata.Node

/-!
# Metadata as JSON

How entity types, fields, features, list nodes and phases are written as JSON and read back. Written
metadata leaves out empty optional parts; reading gives the parts that are left out their default.
-/

namespace TypedEntities.Metadata

open TypedEntities.Json

/-! ## Writing -/

/-- The tag of a kind of field. -/
def FieldType.tag : FieldType → String
  | .string => "string"
  | .memo => "memo"
  | .integer => "integer"
  | .float => "float"
  | .boolean => "boolean"
  | .date => "date"
  | .dateTime => "date_time"
  | .reference => "reference"
  | .object => "object"
  | .unknown => "unknown"

/-- A member that is left out when there is no value. -/
def optionalMember (key : String) (value : Option Json) : List (String × Json) :=
  (value.map (key, ·)).toList

/-- A feature with the name that tells its kind. -/
def Feature.toJson : Feature → Json
  | .rest url methods =>
    .object [("name", .text "rest"), ("url", .text url), ("methods", .ofTexts methods)]
  | .subtypeOf parent => .object [("name", .text "subtype_of"), ("type", .text parent)]
  | .subtypes types => .object [("name", .text "subtypes"), ("types", .ofTexts types)]
  | .other => .object [("name", .text "other")]

/-- A target of a reference, with its logical name if it has one. -/
def Target.toJson (t : Target) : Json :=
  .object <| ("type", .text t.entityType) :: optionalMember "logical_name" (t.logicalName.map .text)

def ReferenceData.toJson (d : ReferenceData) : Json :=
  .object [("multiple", .bool d.multiple), ("targets", .array (d.targets.map Target.toJson))]

/-- A field. Where it points to is written only if that is known. -/
def Field.toJson (f : Field) : Json :=
  .object <|
    [("name", .text f.name), ("label", .text f.label), ("field_type", .text f.fieldType.tag),
      ("required", .bool f.required), ("sortable", .bool f.sortable),
      ("editable", .bool f.editable)]
    ++ optionalMember "field_type_data" (f.reference.map ReferenceData.toJson)

/-- An entity type. The list of its fields is left out while none is known. -/
def Entity.toJson (e : Entity) : Json :=
  .object <|
    [("name", .text e.name), ("label", .text e.label),
      ("features", .array (e.features.map Feature.toJson))]
    ++ if e.fields.isEmpty then [] else [("fields", .array (e.fields.map Field.toJson))]

/-- The number of the level. -/
def Activity.toJson (a : Activity) : Json := .ofNat a.level

/-- A root or a value of a list. -/
def ListNode.toJson (n : ListNode) : Json :=
  .object <|
    [("id", .text n.id), ("name", .text n.name)]
    ++ optionalMember "logical_name" (n.logicalName.map .text)
    ++ [("activity_level", n.activity.toJson)]
    ++ optionalMember "list_root" (n.root.map .text)

def Phase.toJson (p : Phase) : Json :=
  .object [("id", .text p.id), ("name", .text p.name), ("entity", .text p.entity)]

/-! ## Reading -/

/-- The kind of field that a tag names; a tag without a meaning here is an unknown kind. -/
def FieldType.ofTag : String → FieldType
  | "string" => .string
  | "memo" => .memo
  | "integer" => .integer
  | "float" => .float
  | "boolean" => .boolean
  | "date" => .date
  | "date_time" => .dateTime
  | "reference" => .reference
  | "object" => .object
  | _ => .unknown

/-- A tag stands alone or as the only key of an object, with null. -/
def FieldType.decode : Decoder FieldType
  | _, .text s => s.map FieldType.ofTag
  | _ + 1, .object [(some tag, .null)] => some (FieldType.ofTag tag)
  | _, _ => none

/-- A feature from its tag and its other members. -/
def Feature.ofMembers (tag : String) (levels : Nat) (members : List (Option String × Tree)) :
    Option Feature :=
  match tag with
  | "rest" => do
    match ← Decoder.slotsOfMembers ["url", "methods"] members with
    | [url, methods] => do
      let url ← Decoder.required .text levels url
      let methods ← Decoder.withDefault [] (.list .text) levels methods
      return .rest url methods
    | _ => none
  | "subtype_of" => do
    match ← Decoder.slotsOfMembers ["type"] members with
    | [parent] => (Decoder.required .text levels parent).map .subtypeOf
    | _ => none
  | "subtypes" => do
    match ← Decoder.slotsOfMembers ["types"] members with
    | [types] => (Decoder.withDefault [] (.list .text) levels types).map .subtypes
    | _ => none
  | _ => some .other

/-- A feature from its tag and its other fields in their order. -/
def Feature.ofItems (tag : String) (levels : Nat) (items : List Tree) : Option Feature :=
  match tag, items with
  | "rest", [url] => (Decoder.text levels url).map (.rest · [])
  | "rest", [url, methods] => do
    let url ← Decoder.text levels url
    let methods ← Decoder.list .text levels methods
    return .rest url methods
  | "rest", _ => none
  | "subtype_of", [parent] => (Decoder.text levels parent).map .subtypeOf
  | "subtype_of", _ => none
  | "subtypes", [] => some (.subtypes [])
  | "subtypes", [types] => (Decoder.list .text levels types).map .subtypes
  | "subtypes", _ => none
  | _, [] => some .other
  | _, _ => none

/-- A feature is tagged by its name. All of it has to be a value, also what is not read. -/
def Feature.decode : Decoder Feature := fun levels t =>
  if (t.value? levels).isNone then none
  else match t with
  | .object members =>
    match members.filter fun m => m.1 = some "name" with
    | [(_, .text (some tag))] =>
      Feature.ofMembers tag (levels - 1) (members.filter fun m => m.1 ≠ some "name")
    | _ => none
  | .array (.text (some tag) :: items) => Feature.ofItems tag (levels - 1) items
  | _ => none

/-- A target; its logical name may be missing or null. -/
def Target.decode : Decoder Target := fun levels t => do
  match ← Decoder.slots ["type", "logical_name"] levels t with
  | [entityType, logicalName] => do
    let entityType ← Decoder.required .text (levels - 1) entityType
    let logicalName ← Decoder.withDefault none (.nullable .text) (levels - 1) logicalName
    return ⟨entityType, logicalName⟩
  | _ => none

def ReferenceData.decode : Decoder ReferenceData := fun levels t => do
  match ← Decoder.slots ["multiple", "targets"] levels t with
  | [multiple, targets] => do
    let multiple ← Decoder.withDefault false .bool (levels - 1) multiple
    let targets ← Decoder.withDefault [] (.list Target.decode) (levels - 1) targets
    return ⟨multiple, targets⟩
  | _ => none

/-- A field, of which only the name and the kind have to be there. It is editable unless it says
otherwise. -/
def Field.decode : Decoder Field := fun levels t => do
  let fields := ["name", "label", "field_type", "required", "sortable", "editable",
    "field_type_data"]
  match ← Decoder.slots fields levels t with
  | [name, label, fieldType, required, sortable, editable, reference] => do
    let name ← Decoder.required .text (levels - 1) name
    let label ← Decoder.withDefault "" .text (levels - 1) label
    let fieldType ← Decoder.required FieldType.decode (levels - 1) fieldType
    let required ← Decoder.withDefault false .bool (levels - 1) required
    let sortable ← Decoder.withDefault false .bool (levels - 1) sortable
    let editable ← Decoder.withDefault true .bool (levels - 1) editable
    let reference ←
      Decoder.withDefault none (.nullable ReferenceData.decode) (levels - 1) reference
    return ⟨name, label, fieldType, required, sortable, editable, reference⟩
  | _ => none

/-- An entity type, of which only the name has to be there. -/
def Entity.decode : Decoder Entity := fun levels t => do
  match ← Decoder.slots ["name", "label", "features", "fields"] levels t with
  | [name, label, features, fields] => do
    let name ← Decoder.required .text (levels - 1) name
    let label ← Decoder.withDefault "" .text (levels - 1) label
    let features ← Decoder.withDefault [] (.list Feature.decode) (levels - 1) features
    let fields ← Decoder.withDefault [] (.list Field.decode) (levels - 1) fields
    return ⟨name, label, features, fields⟩
  | _ => none

/-- A level by its number; other numbers are refused. -/
def Activity.decode : Decoder Activity := fun levels t =>
  (Decoder.signed levels t).bind Activity.ofLevel?

/-- A root or a value of a list. Its level has to be there, and is one that has a meaning. -/
def ListNode.decode : Decoder ListNode := fun levels t => do
  let fields := ["id", "name", "logical_name", "activity_level", "list_root"]
  match ← Decoder.slots fields levels t with
  | [id, name, logicalName, activity, root] => do
    let id ← Decoder.required .text (levels - 1) id
    let name ← Decoder.required .text (levels - 1) name
    let logicalName ← Decoder.withDefault none (.nullable .text) (levels - 1) logicalName
    let activity ← Decoder.required Activity.decode (levels - 1) activity
    let root ← Decoder.withDefault none (.nullable .text) (levels - 1) root
    return ⟨id, name, logicalName, activity, root⟩
  | _ => none

def Phase.decode : Decoder Phase := fun levels t => do
  match ← Decoder.slots ["id", "name", "entity"] levels t with
  | [id, name, entity] => do
    let id ← Decoder.required .text (levels - 1) id
    let name ← Decoder.required .text (levels - 1) name
    let entity ← Decoder.required .text (levels - 1) entity
    return ⟨id, name, entity⟩
  | _ => none

end TypedEntities.Metadata
