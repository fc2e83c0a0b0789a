/-!
# Entity types

What the server says about an entity type: its features, and its fields with the types that a
reference may point to.
-/

namespace TypedEntities.Metadata

/-- The entity type of list roots and list values. -/
def listNodeType : String := "list_node"

/-- A capability of an entity type. -/
inductive Feature
  /-- The type has a collection of its own, at `url`, with the methods it allows. -/
  | rest (url : String) (methods : List String)
  /-- The type is a subtype of `parent`. -/
  | subtypeOf (parent : String)
  /-- The type stands for its subtypes. -/
  | subtypes (types : List String)
  /-- A capability that has no bearing on the model. -/
  | other
deriving DecidableEq, Repr, Inhabited

/-- The kinds of field that the server knows. -/
inductive FieldType
  | string
  | memo
  | integer
  | float
  | boolean
  | date
  | dateTime
  | reference
  | object
  /-- Any kind without a meaning here. -/
  | unknown
deriving DecidableEq, Repr, Inhabited

/-- An entity type that a reference may point to. A list is named by its logical name. -/
structure Target where
  entityType : String
  logicalName : Option String
deriving DecidableEq, Repr, Inhabited

/-- Where a reference points to, and whether it holds several references. -/
structure ReferenceData where
  multiple : Bool
  targets : List Target
deriving DecidableEq, Repr, Inhabited

/-- A field of an entity type. -/
structure Field where
  name : String
  label : String
  fieldType : FieldType
  required : Bool
  sortable : Bool
  editable : Bool
  reference : Option ReferenceData
deriving DecidableEq, Repr, Inhabited

/-- An entity type. -/
structure Entity where
  name : String
  label : String
  features : List Feature
  fields : List Field
deriving DecidableEq, Repr, Inhabited

/-! ## Building -/

/-- A target that is an entity type. -/
def Target.entity (entityType : String) : Target := ⟨entityType, none⟩

/-- A target that is the list with the given logical name. -/
def Target.list (logicalName : String) : Target := ⟨listNodeType, some logicalName⟩

/-- An editable field with no further property. -/
def Field.plain (name : String) (fieldType : FieldType) : Field :=
  ⟨name, "", fieldType, false, false, true, none⟩

/-- An editable reference field. -/
def Field.referring (name : String) (multiple : Bool) (targets : List Target) : Field :=
  { Field.plain name .reference with reference := some ⟨multiple, targets⟩ }

/-- An entity type without features and fields. -/
def Entity.named (name : String) : Entity := ⟨name, "", [], []⟩

/-- The entity type with one feature more. -/
def Entity.addFeature (e : Entity) (feature : Feature) : Entity :=
  { e with features := e.features ++ [feature] }

/-- The entity type with other fields. -/
def Entity.withFields (e : Entity) (fields : List Field) : Entity := { e with fields := fields }

/-! ## Reading -/

/-- The address and the methods of the first collection that the type has. -/
def Entity.rest? (e : Entity) : Option (String × List String) :=
  e.features.findSome? fun
    | .rest url methods => some (url, methods)
    | _ => none

/-- The parent that the first feature of this kind names. -/
def Entity.parent? (e : Entity) : Option String :=
  e.features.findSome? fun
    | .subtypeOf parent => some parent
    | _ => none

/-- The subtypes that the first feature of this kind lists. -/
def Entity.declaredSubtypes (e : Entity) : List String :=
  (e.features.findSome? fun
    | .subtypes types => some types
    | _ => none).getD []

def Field.isReference (f : Field) : Bool := f.fieldType = .reference

def Field.isMultiple (f : Field) : Bool := f.reference.any (·.multiple)

def Field.targets (f : Field) : List Target := (f.reference.map (·.targets)).getD []

/-- The first target if it is a list. -/
def Field.listTarget? (f : Field) : Option Target :=
  f.targets.head?.filter fun t => t.entityType = listNodeType

end TypedEntities.Metadata
