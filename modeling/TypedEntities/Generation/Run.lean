import TypedEntities.Generation.Parties
import TypedEntities.Reference
import TypedEntities.Source.Emitted

/-!
# A run

A run reads the metadata of a workspace from a client and writes the sources. The entity type
`work_item_root` is only shown by the technical preview, so it is read in a session of its own; the
rest is read in a session of the mode that the settings ask for. Lists and phases come first, because
references are resolved against them. The first failure ends the run, except that a failing sign-out
is passed over.
-/

namespace TypedEntities

open TypedEntities.Metadata

/-- The entity type above all work items. -/
def workItemRoot : String := "work_item_root"

/-- What a run works with. -/
structure Generator (σ τ : Type) where
  settings : Settings
  client : Client σ
  render : SourceKind → Json → Except Failure String
  sink : Sink τ

/-- How things stand in the course of a run. -/
structure Progress (σ τ : Type) where
  client : σ
  sink : τ
  /-- The calls made so far. -/
  calls : List Call
  /-- The sources written so far. -/
  written : List Source

/-- A piece of a run: it ends well or with a failure, and things have moved on either way. -/
abbrev Run (σ τ : Type) := ExceptT Failure (StateM (Progress σ τ))

/-- What a run did. -/
structure Report where
  lists : Nat
  phaseGroups : Nat
  /-- The entity types that have models now. -/
  entities : List String
  /-- The entity types that never get a model. -/
  skipped : List String
  files : List String
deriving DecidableEq, Repr, Inhabited

namespace Generator

variable {σ τ : Type}

/-- The package that is written. -/
def package (g : Generator σ τ) : Package := .ofSettings g.settings

/-- The file that a source goes to. -/
def fileOf (g : Generator σ τ) (source : Source) : String := g.package.layout.file source

/-! ## Steps -/

/-- Asks the client. -/
def ask (g : Generator σ τ) (call : Call) : Run σ τ call.Answer := fun p =>
  let (answer, client) := g.client call p.client
  (answer, { p with client := client, calls := p.calls ++ [call] })

/-- Signs out; a failure is passed over. -/
def signOut (g : Generator σ τ) : Run σ τ Unit := fun p => (.ok (), (g.ask .signOut p).2)

/-- Goes on with a result that is there already, or ends with its failure. -/
def settle {α : Type} (result : Except Failure α) : Run σ τ α := fun p => (result, p)

/-- Writes the text of a source to its file. -/
def put (g : Generator σ τ) (source : Source) (text : String) : Run σ τ Unit := fun p =>
  match g.sink (g.fileOf source) text p.sink with
  | (.ok (), sink) => (.ok (), { p with sink := sink, written := p.written ++ [source] })
  | (.error f, sink) => (.error f, { p with sink := sink })

/-- Renders a source and writes it. -/
def emit (g : Generator σ τ) (source : Source) : Run σ τ Unit := do
  let text ← settle (g.render source.kind source.context)
  g.put source text

/-! ## Reading -/

/-- The type `work_item_root` with its fields, read in a session of its own. -/
def readWorkItemRoot (g : Generator σ τ) : Run σ τ Entity := do
  g.ask (.signIn g.settings.credentials .technicalPreview)
  let root ← g.ask (.entityType workItemRoot)
  let fields ← g.ask (.fields workItemRoot)
  g.signOut
  return root.withFields fields

/-- The catalog of all entity types, among them the given `work_item_root`. -/
def readCatalog (g : Generator σ τ) (root : Entity) : Run σ τ Catalog := do
  let types ← g.ask .entityTypes
  return Catalog.ofList (types.filter (fun e => e.name ≠ workItemRoot) ++ [root])

/-- The entities of a collection that a selection asks for, each read. -/
def readAll {α : Type} (g : Generator σ τ) (collection : String) (selection : Selection)
    (read : Record → Except Failure α) : Run σ τ (List α) := do
  let records ← g.ask (.query collection selection)
  settle (records.mapM read)

/-- The collection of list nodes. -/
def listNodes : String := "list_nodes"

/-- The question for the list nodes that a filter lets pass. -/
def nodeSelection (filter : Filter) : Selection :=
  ⟨["name", "id", "logical_name", "activity_level", "list_root"], some filter⟩

/-- The filter for the roots of lists that are active. -/
def activeRoots : Filter := (Filter.isNull "list_root").and (.equal "activity_level" (.number 0))

/-- The filter for the values of a root that are not removed. -/
def valuesBelow (root : ListNode) : Filter :=
  (Filter.refers "list_root" (.equal "id" (.text root.id))).and (.less "activity_level" (.number 2))

/-- The list nodes that a filter lets pass. -/
def readNodes (g : Generator σ τ) (filter : Filter) : Run σ τ (List ListNode) :=
  g.readAll listNodes (nodeSelection filter) Record.listNode

/-- The lists: first all roots, then the values of each root that is not ignored. -/
def readLists (g : Generator σ τ) : Run σ τ Lists := do
  let roots ← g.readNodes activeRoots
  let wanted := roots.filter fun root => !g.settings.ignoredLists.contains root.id
  let values ← wanted.mapM fun root => g.readNodes (valuesBelow root)
  return Lists.build roots values.flatten g.settings.ignoredLists

/-- The question for the phases that are active. -/
def phaseSelection : Selection :=
  ⟨["id", "name", "entity"], some (.equal "activity_level" (.number 0))⟩

/-- The phases. -/
def readPhases (g : Generator σ τ) : Run σ τ Phases := do
  let phases ← g.readAll "phases" phaseSelection Record.phase
  return Phases.empty.merge phases

/-! ## Writing -/

/-- The entity type with its fields. Those of `work_item_root` are there already. -/
def readFields (g : Generator σ τ) (entity : Entity) : Run σ τ Entity :=
  if entity.name = workItemRoot then pure entity
  else do
    let fields ← g.ask (.fields entity.name)
    return entity.withFields fields

/-- Reads the fields of an entity type and writes its sources. -/
def writeEntity (g : Generator σ τ) (r : Resolver) (entity : Entity) : Run σ τ Unit := do
  let entity ← g.readFields entity
  let sources ← settle (g.package.entitySources r entity)
  sources.forM g.emit

/-- Reads lists and phases and writes all sources, for the entity types of a catalog. -/
def writeCatalog (g : Generator σ τ) (catalog : Catalog) : Run σ τ Report := do
  let lists ← g.readLists
  let phases ← g.readPhases
  lists.enums.forM fun list => g.emit (g.package.listSource list)
  g.emit (g.package.phasesSource phases)
  let r : Resolver := ⟨catalog, lists.logicalNames, phases.keys⟩
  (catalog.entities.values.filter fun e => !isExcluded e.name).forM (g.writeEntity r)
  let p ← get
  return {
    lists := lists.enums.length
    phaseGroups := phases.size
    entities := catalog.names.filter fun name => !isExcluded name
    skipped := catalog.names.filter isExcluded
    files := p.written.map g.fileOf }

/-- The whole run. -/
def generate (g : Generator σ τ) : Run σ τ Report := do
  let root ← g.readWorkItemRoot
  g.ask (.signIn g.settings.credentials g.settings.apiMode)
  let catalog ← g.readCatalog root
  let report ← g.writeCatalog catalog
  g.signOut
  return report

/-- What comes of the whole run from a state of the client and of the sink. -/
def start (g : Generator σ τ) (client : σ) (sink : τ) : Except Failure Report × Progress σ τ :=
  g.generate ⟨client, sink, [], []⟩

end Generator

end TypedEntities
