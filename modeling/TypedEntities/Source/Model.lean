import TypedEntities.Java.Distinct
import TypedEntities.Overload
import TypedEntities.Reference
import TypedEntities.Source.Accessor

/-!
# Models, interfaces and entity lists

What the sources of one entity type hold. `ModelSource.of` gathers the fields in the order of their
names and makes a constructor for every way to give the required ones, except where Java could not
tell it from an earlier constructor. `InterfaceSource.of` finds the interface above, and
`EntityListSource.of?` says what the list class allows, if the type has a collection.
-/

namespace TypedEntities

open TypedEntities.Metadata
open TypedEntities.Java (TypeExpr typeName memberName modelClass interfaceName genericClass erasure)

/-! ## Models -/

/-- A field of a model. -/
structure FieldSource where
  name : String
  /-- What stands in the comment of the getter. -/
  label : String
  /-- The name after `get` and `set`. -/
  accessor : String
  getter : Accessor
  setters : List Accessor
  required : Bool
  sortable : Bool
deriving DecidableEq, Repr, Inhabited

/-- A parameter of a constructor. -/
structure Parameter where
  member : String
  accessor : String
  javaType : String
deriving DecidableEq, Repr, Inhabited

/-- A constructor that sets the required fields. -/
structure Constructor where
  parameters : List Parameter
deriving DecidableEq, Repr, Inhabited

/-- The model of an entity type. -/
structure ModelSource where
  package : String
  entity : String
  fields : List FieldSource
  constructors : List Constructor
deriving DecidableEq, Repr, Inhabited

/-- A text that does not end the comment in which it stands: a blank parts an asterisk from a slash
after it. -/
def commentChars : List Char → List Char
  | '*' :: '/' :: rest => '*' :: ' ' :: '/' :: commentChars rest
  | c :: rest => c :: commentChars rest
  | [] => []

def commentText (text : String) : String := String.ofList (commentChars text.toList)

/-- The field descriptions in the order of their names. -/
def sortFields (fields : List Field) : List Field := fields.mergeSort fun a b => a.name ≤ b.name

namespace FieldSource

/-- A field that accepts the given types. -/
def of (package : String) (field : Field) (types : List TypeExpr) : FieldSource where
  name := field.name
  label := commentText (if field.label = "" then field.name else field.label)
  accessor := typeName field.name
  getter := Accessor.getterOf package types
  setters := if field.editable || field.required then types.map (Accessor.ofType package) else []
  required := field.required
  sortable := field.sortable

end FieldSource

/-- The parameter for a type chosen for a field. -/
def Parameter.of (package : String) (choice : String × TypeExpr) : Parameter where
  member := memberName choice.1
  accessor := typeName choice.1
  javaType := choice.2.text package

/-- The constructor for types chosen for the required fields. -/
def Constructor.of (package : String) (combination : Combination) : Constructor :=
  ⟨combination.map (Parameter.of package)⟩

/-- What Java tells constructors apart by. -/
def Constructor.signature (c : Constructor) : List String :=
  c.parameters.map fun p => erasure p.javaType

/-- The constructors whose signatures are neither among those seen nor that of an earlier one. -/
def distinctConstructors : (seen : List (List String)) → List Constructor → List Constructor
  | _, [] => []
  | seen, c :: rest =>
    if c.signature ∈ seen then distinctConstructors seen rest
    else c :: distinctConstructors (c.signature :: seen) rest

namespace ModelSource

/-- The signature of the constructor that every model has for an entity of any type. -/
def wrapping : List String := [genericClass]

/-- The field descriptions with the types they accept, unless one cannot be resolved. -/
def resolveFields (r : Resolver) (entity : Entity) :
    Except Failure (List (Field × List TypeExpr)) :=
  (sortFields entity.fields).mapM fun field => do
    let types ← r.candidates entity.name field
    return (field, types)

/-- The required ones of the resolved fields. -/
def requiredFields (fields : List (Field × List TypeExpr)) : RequiredFields :=
  fields.foldl
    (fun r (field, types) => if field.required then r.insert field.name types else r)
    RequiredFields.empty

/-- The model of an entity type. -/
def of (package : String) (entity : Entity) (r : Resolver) : Except Failure ModelSource := do
  let fields ← resolveFields r entity
  let combinations ← (requiredFields fields).combinations entity.name
  return {
    package := package
    entity := entity.name
    fields := fields.map fun (field, types) => FieldSource.of package field types
    constructors := distinctConstructors [wrapping] (combinations.map (Constructor.of package)) }

def className (m : ModelSource) : String := modelClass m.entity

def interface (m : ModelSource) : String := interfaceName m.entity

end ModelSource

/-! ## Interfaces -/

/-- The interface of an entity type. -/
structure InterfaceSource where
  package : String
  entity : String
  superInterface : String
deriving DecidableEq, Repr, Inhabited

namespace InterfaceSource

/-- The interface of all entities. -/
def top : String := "Entity"

/-- The interface of an entity type. It extends the parent's if the parent gets a model. -/
def of (package : String) (entity : Entity) (catalog : Catalog) : InterfaceSource where
  package := package
  entity := entity.name
  superInterface :=
    match entity.parent?.filter catalog.isGenerated with
    | some parent => interfaceName parent
    | none => top

def name (i : InterfaceSource) : String := interfaceName i.entity

end InterfaceSource

/-! ## Entity lists -/

/-- A constant that stands for a field. -/
structure FieldConstant where
  identifier : String
  name : String
deriving DecidableEq, Repr, Inhabited

/-- The constants of fields with the given names. -/
def FieldConstant.ofNames (names : List String) : List FieldConstant :=
  (Java.constantsForNames names).map fun (identifier, name) => ⟨identifier, name⟩

/-- The list class of an entity type. -/
structure EntityListSource where
  package : String
  entity : String
  url : String
  canGet : Bool
  canCreate : Bool
  canUpdate : Bool
  canDelete : Bool
  availableFields : List FieldConstant
  sortableFields : List FieldConstant
deriving DecidableEq, Repr, Inhabited

namespace EntityListSource

/-- Whether a method is among those allowed, whatever the case of its letters. -/
def allows (methods : List String) (method : String) : Bool :=
  methods.any fun m => m.toLower = method.toLower

/-- The list class of an entity type that has a collection. -/
def of? (package : String) (entity : Entity) : Option EntityListSource :=
  entity.rest?.map fun (url, methods) =>
    let fields := sortFields entity.fields
    { package := package
      entity := entity.name
      url := url
      canGet := allows methods "GET"
      canCreate := allows methods "POST"
      canUpdate := allows methods "PUT"
      canDelete := allows methods "DELETE"
      availableFields := FieldConstant.ofNames (fields.map (·.name))
      sortableFields := FieldConstant.ofNames ((fields.filter (·.sortable)).map (·.name)) }

def className (l : EntityListSource) : String := typeName l.entity ++ "EntityList"

def modelClass (l : EntityListSource) : String := Java.modelClass l.entity

end EntityListSource

end TypedEntities
