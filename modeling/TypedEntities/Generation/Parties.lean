import TypedEntities.Files.Memory
import TypedEntities.Files.Tree
import TypedEntities.Filter
import TypedEntities.Metadata.Entity
import TypedEntities.Record
import TypedEntities.Settings.Basic

/-!
# Clients and sinks

What a run asks the server, and what kind of answer each question has. A client answers calls and may
change with each of them; it is given by what it answers and becomes. A sink takes the files of a
run: files in memory, or a tree of files below a directory of it.
-/

namespace TypedEntities

open TypedEntities.Metadata

/-- A question to the server. -/
inductive Call
  | signIn (credentials : Credentials) (mode : ApiMode)
  | signOut
  /-- All entity types. -/
  | entityTypes
  /-- One entity type. -/
  | entityType (name : String)
  /-- The fields of an entity type. -/
  | fields (entity : String)
  /-- Entities of a collection. -/
  | query (collection : String) (selection : Selection)
deriving Inhabited

/-- The kind of answer that a call has. -/
abbrev Call.Answer : Call → Type
  | .signIn .. => Unit
  | .signOut => Unit
  | .entityTypes => List Entity
  | .entityType _ => Entity
  | .fields _ => List Field
  | .query .. => List Record

/-- What answers calls, with the state that it keeps between them. -/
abbrev Client (σ : Type) := (call : Call) → σ → Except Failure call.Answer × σ

/-! ## Sinks -/

/-- What takes the files of a run, with the state that it keeps. -/
abbrev Sink (τ : Type) := (path text : String) → τ → Except Failure Unit × τ

/-- Files in memory take every file. -/
def MemoryFiles.sink : Sink MemoryFiles := fun path text files => (.ok (), files.write path text)

/-- A tree takes files below a root as far as they can be written. -/
def FileTree.sink (root : String) : Sink FileTree := fun path text tree =>
  let (tree, result) := tree.write Mishap.none root path text
  (result, tree)

end TypedEntities
