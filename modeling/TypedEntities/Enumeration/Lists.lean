import TypedEntities.Java.Distinct
import TypedEntities.Metadata.Node
import TypedEntities.Table

/-!
# Lists as enumerations

Every list root becomes an enumeration: first the root itself, then its values by name and id. Roots
and values that were removed, and roots that are to be ignored, do not appear.
-/

namespace TypedEntities

open TypedEntities.Metadata
open TypedEntities.Java (distinctConstants Sibling)

/-- A constant of the enumeration of a list. -/
structure ListItem where
  identifier : String
  id : String
  name : String
  activity : Activity
deriving DecidableEq, Repr, Inhabited

/-- The enumeration of a list. -/
structure ListEnum where
  identifier : String
  logicalName : Option String
  items : List ListItem
deriving DecidableEq, Repr, Inhabited

def ListItem.isDeprecated (i : ListItem) : Bool := i.activity = .deprecated

/-- The enumerations by identifier, and the identifiers by logical name. -/
structure Lists where
  enums : List ListEnum
  logicalNames : Table String String
deriving Inhabited

namespace Lists

def sibling (n : ListNode) : Sibling := ⟨n.name, n.id⟩

def item (n : ListNode) (identifier : String) : ListItem := ⟨identifier, n.id, n.name, n.activity⟩

/-- The roots that become enumerations. -/
def survivingRoots (roots : List ListNode) (ignored : Table String Unit) : List ListNode :=
  roots.filter fun r => !ignored.contains r.id && r.activity ≠ .removed

/-- The values that are not removed of the root with an id, by name and id. -/
def valuesOf (values : List ListNode) (id : String) : List ListNode :=
  (values.filter fun v => v.activity ≠ .removed && v.root = some id).mergeSort
    fun a b => (sibling a).key ≤ (sibling b).key

/-- The enumeration of a root with its values. -/
def enumOf (root : ListNode) (identifier : String) (values : List ListNode) : ListEnum where
  identifier := identifier
  logicalName := root.logicalName
  items :=
    item root identifier ::
      List.zipWith item values (distinctConstants (values.map sibling) (some identifier))

/-- The enumerations of roots with their identifiers. Of several roots with one id the first has the
values. -/
def enumsOf (values : List ListNode) : (seen : List String) → List (ListNode × String) → List ListEnum
  | _, [] => []
  | seen, (root, identifier) :: rest =>
    enumOf root identifier (if root.id ∈ seen then [] else valuesOf values root.id)
      :: enumsOf values (root.id :: seen) rest

/-- The lists of roots and values. A logical name that several roots have is the last one's. -/
def build (roots values : List ListNode) (ignored : Table String Unit) : Lists :=
  let roots := survivingRoots roots ignored
  let named := roots.zip (distinctConstants (roots.map sibling) none)
  { enums := (enumsOf values [] named).mergeSort fun a b => a.identifier ≤ b.identifier
    logicalNames := Table.ofList (named.filterMap fun (r, i) => r.logicalName.map (·, i)) }

/-- The identifier of the list with a logical name. -/
def identifierOf? (l : Lists) (logicalName : String) : Option String :=
  l.logicalNames.get? logicalName

end Lists

end TypedEntities
