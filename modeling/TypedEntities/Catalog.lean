import TypedEntities.Metadata.Entity
import TypedEntities.Table

/-!
# The catalog of entity types

The catalog knows the entity types of a workspace by name and which types are below which. A type and
its subtypes may both state the relation; the catalog joins what they say. `Catalog.leaves` finds the
types without subtypes below a type, in the order of a walk that takes the subtypes of a type one
after the other and enters no type twice, so circles among the types do no harm.
-/

namespace TypedEntities

open TypedEntities.Metadata

/-- Entity types that never get a model: logs, histories and descriptions of other types. -/
def isExcluded (entity : String) : Bool :=
  entity ∈ ["run_history", "history_log", "audit", "ci_parameter"]
    || ["field_metadata", "log"].any fun start => start.toList.isPrefixOf entity.toList

/-- The entity types of a workspace. -/
structure Catalog where
  /-- The types by name. -/
  entities : Table String Entity
  /-- The direct subtypes of the types that have any. -/
  edges : Table String (List String)
deriving Inhabited

namespace Catalog

/-- Lists a subtype once below its parent, after those listed before. -/
def addEdge (edges : Table String (List String)) (parent child : String) :
    Table String (List String) :=
  edges.upsert parent fun children =>
    let children := children.getD []
    if child ∈ children then children else children ++ [child]

/-- The pairs of parent and child that the types state: first all that parents state, then all that
children state, each in the order of the names of those who state them. -/
def statedEdges (entities : Table String Entity) : List (String × String) :=
  (entities.entries.flatMap fun (name, e) => e.declaredSubtypes.map fun child => (name, child))
    ++ entities.entries.filterMap fun (name, e) => e.parent?.map fun parent => (parent, name)

/-- The catalog of the given types; of several with one name the last. -/
def ofList (entities : List Entity) : Catalog :=
  let table := Table.ofList (entities.map fun e => (e.name, e))
  ⟨table, (statedEdges table).foldl (fun edges e => addEdge edges e.1 e.2) Table.empty⟩

def get? (c : Catalog) (name : String) : Option Entity := c.entities.get? name

def contains (c : Catalog) (name : String) : Bool := c.entities.contains name

/-- Whether a type gets a model. -/
def isGenerated (c : Catalog) (name : String) : Bool := c.contains name && !isExcluded name

/-- The direct subtypes of a type. -/
def subtypes (c : Catalog) (name : String) : List String := (c.edges.get? name).getD []

/-- The names of all types, in ascending order. -/
def names (c : Catalog) : List String := c.entities.keys

def size (c : Catalog) : Nat := c.entities.size

/-- How many pairs of a type and a direct subtype there are. -/
def edgeCount (c : Catalog) : Nat := c.edges.values.flatten.length

/-- The types without subtypes on a walk over the types that wait, entering none of those seen. Every
step takes one waiting type away, and each pair of type and subtype adds one at most once. -/
def walk (c : Catalog) : (fuel : Nat) → (waiting seen : List String) → List String
  | 0, _, _ => []
  | _ + 1, [], _ => []
  | fuel + 1, name :: waiting, seen =>
    if name ∈ seen then walk c fuel waiting seen
    else match c.subtypes name with
    | [] => name :: walk c fuel waiting (name :: seen)
    | children => walk c fuel (children ++ waiting) (name :: seen)

/-- The types without subtypes that are reached from a type; the type itself if it has none. -/
def leaves (c : Catalog) (name : String) : List String := c.walk (c.edgeCount + 1) [name] []

end Catalog

end TypedEntities
