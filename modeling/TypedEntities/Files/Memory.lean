import TypedEntities.Files.Path
import TypedEntities.Table

/-!
# Files in memory

Texts by path, in the order of the paths. Paths that differ only in what has no meaning are one path,
and it stays as it was written first.
-/

namespace TypedEntities

/-- A text with the path that it was first written under. -/
structure MemoryFile where
  path : String
  text : String
deriving DecidableEq, Repr, Inhabited

/-- Files in memory. -/
structure MemoryFiles where
  files : Table Texts MemoryFile
deriving Inhabited

namespace MemoryFiles

def empty : MemoryFiles := ⟨Table.empty⟩

/-- Writes a text, in place of the former one if there is one. -/
def write (m : MemoryFiles) (path text : String) : MemoryFiles :=
  ⟨m.files.upsert (Path.sortKey path) fun former =>
    ⟨(former.map MemoryFile.path).getD path, text⟩⟩

/-- The text that a path has. -/
def get? (m : MemoryFiles) (path : String) : Option String :=
  (m.files.get? (Path.sortKey path)).map MemoryFile.text

/-- The paths in their order. -/
def paths (m : MemoryFiles) : List String := m.files.values.map MemoryFile.path

def size (m : MemoryFiles) : Nat := m.files.size

def isEmpty (m : MemoryFiles) : Bool := m.files.isEmpty

/-- What was written is there. -/
theorem get?_write_self (m : MemoryFiles) (path text : String) :
    (m.write path text).get? path = some text := by
  simp [write, get?, Table.get?_upsert_self]

/-- Writing leaves the other paths alone. -/
theorem get?_write_of_ne (m : MemoryFiles) {path other : String} (text : String)
    (h : Path.sortKey other ≠ Path.sortKey path) : (m.write path text).get? other = m.get? other := by
  simp [write, get?, Table.get?_upsert_of_ne _ _ h]

end MemoryFiles

end TypedEntities
