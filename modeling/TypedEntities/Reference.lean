import TypedEntities.Catalog
import TypedEntities.Failure
import TypedEntities.Java.TypeExpr

/-!
# What a field accepts

A field that is no reference accepts one Java type. A reference accepts a phase, values of a list,
several entities, models of certain types or any entity, depending on where it points to.
-/

namespace TypedEntities

open TypedEntities.Metadata
open TypedEntities.Java (TypeExpr typeName scalarType)

/-- The field that holds the phase of an entity. -/
def phaseField : String := "phase"

/-- What a reference field accepts. -/
inductive Resolution
  | phase (key : String)
  | list (identifier : String) (multiple : Bool)
  | collection (entity : Option String)
  /-- The models of the types, and with `fallback` any entity as well. -/
  | typed (types : List String) (fallback : Bool)
  | untyped
deriving DecidableEq, Repr, Inhabited

/-- The types of values that a reference field accepts. -/
def Resolution.types : Resolution → List TypeExpr
  | .phase key => [.phase key]
  | .list identifier multiple => [.list identifier multiple]
  | .collection entity => [.collection entity]
  | .typed types fallback => types.map TypeExpr.model ++ if fallback then [.generic] else []
  | .untyped => [.generic]

/-- What references are resolved against: the entity types, the identifiers of the lists by their
logical names, and the type names of the entity types that have phases. -/
structure Resolver where
  catalog : Catalog
  lists : Table String String
  phases : Table String Unit
deriving Inhabited

namespace Resolver

/-- Whether a field holds the phase of its owner. -/
def ownsPhase (r : Resolver) (owner : String) (field : Field) : Bool :=
  field.name = phaseField && r.phases.contains (typeName owner)

/-- A list that a field points to. -/
def resolveList (r : Resolver) (owner : String) (field : Field) (target : Target) :
    Except Failure Resolution :=
  match target.logicalName with
  | none => .error (.metadata owner field.name "list reference has no logical name")
  | some logicalName =>
    match r.lists.get? logicalName with
    | none => .error (.unknownList owner field.name logicalName)
    | some identifier => .ok (.list identifier field.isMultiple)

/-- The entities of a field with several: of one type if there is one target and it gets a model. -/
def resolveCollection (r : Resolver) (targets : List Target) : Resolution :=
  match targets with
  | [only] => .collection (if r.catalog.isGenerated only.entityType then some only.entityType else none)
  | _ => .collection none

/-- The types without subtypes below the targets, each once, as they are found first. -/
def concreteTypes (r : Resolver) (targets : List Target) : List String :=
  (targets.flatMap fun t => r.catalog.leaves t.entityType).eraseDups

/-- The entity of a field with one: a model of one of the types below the targets, or any entity for
the types that get no model. -/
def resolveEntity (r : Resolver) (targets : List Target) : Resolution :=
  let (types, others) := (r.concreteTypes targets).partition r.catalog.isGenerated
  if types.isEmpty then .untyped else .typed types (!others.isEmpty)

/-- What a reference field of an entity type accepts. -/
def resolve (r : Resolver) (owner : String) (field : Field) : Except Failure Resolution :=
  if r.ownsPhase owner field then .ok (.phase (typeName owner))
  else match field.targets with
  | [] => .error (.metadata owner field.name "reference field declares no targets")
  | first :: rest =>
    if first.entityType = listNodeType ∧ owner ≠ listNodeType then r.resolveList owner field first
    else if field.isMultiple then .ok (r.resolveCollection (first :: rest))
    else .ok (r.resolveEntity (first :: rest))

/-- The types of values that a field of an entity type accepts. -/
def candidates (r : Resolver) (owner : String) (field : Field) : Except Failure (List TypeExpr) :=
  if field.isReference || r.ownsPhase owner field then (r.resolve owner field).map Resolution.types
  else .ok [.scalar (scalarType field.fieldType)]

end Resolver

end TypedEntities
