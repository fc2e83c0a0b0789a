import TypedEntities.Java.Lexical
import TypedEntities.Metadata.Entity

/-!
# Java types of fields

A field of a model accepts values of certain Java types. `TypeExpr` says which kind of type it is and
what it depends on; its Java text also depends on the package that the sources are written to.
-/

namespace TypedEntities.Java

open TypedEntities.Metadata

/-- A type that a field accepts. -/
inductive TypeExpr
  /-- A value with a Java type of its own. -/
  | scalar (javaType : String)
  /-- The model of an entity type. -/
  | model (entity : String)
  /-- An entity of any type. -/
  | generic
  /-- A value of a list, or several. -/
  | list (identifier : String) (multiple : Bool)
  /-- A phase of the entity type with the given type name. -/
  | phase (key : String)
  /-- Several entities, of one type if it is given. -/
  | collection (entity : Option String)
deriving DecidableEq, Repr, Inhabited

/-- The Java type of a field that is no reference. -/
def scalarType : FieldType → String
  | .string | .memo | .object => "String"
  | .integer => "Long"
  | .float => "Float"
  | .boolean => "Boolean"
  | .date | .dateTime => "java.time.ZonedDateTime"
  | .reference => "EntityModel"
  | .unknown => "Object"

/-- The class of the model of an entity type. -/
def modelClass (entity : String) : String := typeName entity ++ "EntityModel"

/-- The interface of an entity type. -/
def interfaceName (entity : String) : String := typeName entity ++ "Entity"

/-- The class that every model of one type can be passed for. -/
def genericClass : String := "EntityModel"

/-- The full name of the enumeration of a list. -/
def listClass (package identifier : String) : String := s!"{package}.enums.lists.{identifier}"

/-- The name of the enumeration of the phases of an entity type, by its type name. -/
def phaseEnum (key : String) : String := key ++ "Phase"

/-- A type as it is written in Java. -/
def TypeExpr.text (package : String) : TypeExpr → String
  | .scalar javaType => javaType
  | .model entity => modelClass entity
  | .generic => genericClass
  | .list identifier false => listClass package identifier
  | .list identifier true => s!"java.util.Collection<{listClass package identifier}>"
  | .phase key => s!"{package}.enums.Phases.{phaseEnum key}"
  | .collection (some entity) => s!"java.util.Collection<? extends {interfaceName entity}>"
  | .collection none => "java.util.Collection<? extends Entity>"

/-- A type without its parameters, which is all that tells overloads apart. -/
def erasure (javaType : String) : String :=
  String.ofList (javaType.toList.takeWhile (· ≠ '<'))

end TypedEntities.Java
