import TypedEntities.Java.TypeExpr
import TypedEntities.Json.Value

/-!
# Accessors

A getter or a setter of a model handles one Java type in one way. `Accessor.ofType` says which for a
type that a field accepts, and `getterOf` joins what a field accepts to one type.
-/

namespace TypedEntities

open TypedEntities.Java (TypeExpr)

/-- The ways in which accessors get at a value. -/
inductive AccessorKind
  | scalar
  | model
  | generic
  | list
  | listCollection
  | phase
  | collection
deriving DecidableEq, Repr, Inhabited

/-- The name of a way in a context. -/
def AccessorKind.text : AccessorKind → String
  | .scalar => "scalar"
  | .model => "model"
  | .generic => "generic"
  | .list => "list"
  | .listCollection => "list_collection"
  | .phase => "phase"
  | .collection => "collection"

/-- A getter or a setter. -/
structure Accessor where
  javaType : String
  kind : AccessorKind
  /-- The class that holds a scalar in an entity. -/
  fieldModel : Option String
  /-- The enumeration of the values of a list, where there are several. -/
  elementType : Option String
deriving DecidableEq, Repr, Inhabited

/-- The class that holds a scalar of a Java type in an entity. -/
def fieldModelOf (javaType : String) : String :=
  match javaType with
  | "Long" => "LongFieldModel"
  | "Float" => "FloatFieldModel"
  | "Boolean" => "BooleanFieldModel"
  | "java.time.ZonedDateTime" => "DateFieldModel"
  | "Object" => "ObjectFieldModel"
  | _ => "StringFieldModel"

namespace Accessor

/-- How values of a type are accessed. -/
def kindOf : TypeExpr → AccessorKind
  | .scalar _ => .scalar
  | .model _ => .model
  | .generic => .generic
  | .list _ false => .list
  | .list _ true => .listCollection
  | .phase _ => .phase
  | .collection _ => .collection

/-- The accessor for a type that a field accepts. -/
def ofType (package : String) (t : TypeExpr) : Accessor where
  javaType := t.text package
  kind := kindOf t
  fieldModel :=
    match t with
    | .scalar javaType => some (fieldModelOf javaType)
    | _ => none
  elementType :=
    match t with
    | .list identifier true => some (Java.listClass package identifier)
    | _ => none

/-- The getter of several entities. -/
def entities : Accessor := ⟨"java.util.Collection<EntityModel>", .collection, none, none⟩

/-- The getter of a field that accepts the given types: for one type that type's, for several the one
of any entity. -/
def getterOf (package : String) : List TypeExpr → Accessor
  | [.collection _] => entities
  | [t] => ofType package t
  | _ => ofType package .generic

def toJson (a : Accessor) : Json :=
  .object [("java_type", .text a.javaType), ("kind", .text a.kind.text),
    ("field_model", .ofText? a.fieldModel), ("element_type", .ofText? a.elementType)]

end Accessor

end TypedEntities
