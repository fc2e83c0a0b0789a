/-!
# List nodes and phases

Lists are made of nodes: a root and its values. Phases belong to an entity type.
-/

namespace TypedEntities.Metadata

/-- Where a node stands in its life. -/
inductive Activity
  | active
  | deprecated
  | removed
deriving DecidableEq, Repr, Inhabited

/-- The level that the server numbers. -/
def Activity.ofLevel? (level : Int) : Option Activity :=
  if level = 0 then some .active
  else if level = 1 then some .deprecated
  else if level = 2 then some .removed
  else none

/-- The number of a level. -/
def Activity.level : Activity → Nat
  | .active => 0
  | .deprecated => 1
  | .removed => 2

/-- A root of a list or a value below one. A value names its root. -/
structure ListNode where
  id : String
  name : String
  logicalName : Option String
  activity : Activity
  root : Option String
deriving DecidableEq, Repr, Inhabited

/-- An active root. -/
def ListNode.ofRoot (id name logicalName : String) : ListNode :=
  ⟨id, name, some logicalName, .active, none⟩

/-- A value below a root. -/
def ListNode.ofValue (id name root : String) (activity : Activity) : ListNode :=
  ⟨id, name, none, activity, some root⟩

/-- A phase of an entity type. -/
structure Phase where
  id : String
  name : String
  entity : String
deriving DecidableEq, Repr, Inhabited

end TypedEntities.Metadata
