import TypedEntities.Java.Distinct
import TypedEntities.Java.TypeExpr
import TypedEntities.Metadata.Node
import TypedEntities.Table

/-!
# Phases as enumerations

The phases of an entity type become an enumeration, by name and id. Entity types with one type name
share an enumeration.
-/

namespace TypedEntities

open TypedEntities.Metadata
open TypedEntities.Java (distinctConstants Sibling typeName)

/-- A constant of the enumeration of the phases of an entity type. -/
structure PhaseItem where
  identifier : String
  id : String
  name : String
deriving DecidableEq, Repr, Inhabited

/-- The enumeration of the phases of the entity types with one type name, `key`. One of the entity
types stands for all. -/
structure PhaseGroup where
  key : String
  entity : String
  items : List PhaseItem
deriving DecidableEq, Repr, Inhabited

/-- The name of the enumeration. -/
def PhaseGroup.enumName (g : PhaseGroup) : String := Java.phaseEnum g.key

/-- Phases by the type name of their entity type, in the order in which they came. -/
structure Phases where
  records : Table String (List Phase)
deriving Inhabited

namespace Phases

def empty : Phases := ⟨Table.empty⟩

/-- Adds a phase after the others of its entity type. -/
def add (p : Phases) (phase : Phase) : Phases :=
  ⟨p.records.upsert (typeName phase.entity) fun ps => ps.getD [] ++ [phase]⟩

/-- Adds phases one after the other. -/
def merge (p : Phases) (batch : List Phase) : Phases := batch.foldl add p

/-- The type names of the entity types that have phases. -/
def keys (p : Phases) : Table String Unit :=
  Table.ofList (p.records.keys.map (·, ()))

def contains (p : Phases) (key : String) : Bool := p.records.contains key

def size (p : Phases) : Nat := p.records.size

def sibling (p : Phase) : Sibling := ⟨p.name, p.id⟩

/-- The enumeration of phases that share a type name. -/
def groupOf (key : String) (phases : List Phase) : PhaseGroup :=
  let phases := phases.mergeSort fun a b => (sibling a).key ≤ (sibling b).key
  let constants := distinctConstants (phases.map sibling) none
  { key := key
    entity := (phases.head?.map (·.entity)).getD ""
    items := List.zipWith (fun p c => ⟨c, p.id, p.name⟩) phases constants }

/-- The enumerations, in the order of their keys. -/
def groups (p : Phases) : List PhaseGroup := p.records.entries.map fun (key, phases) => groupOf key phases

end Phases

end TypedEntities
