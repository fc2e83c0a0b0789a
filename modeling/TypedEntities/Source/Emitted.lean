import TypedEntities.Files.Path
import TypedEntities.Settings.Basic
import TypedEntities.Source.Context
import TypedEntities.Template.Engine

/-!
# The sources of a workspace

Which sources a workspace gives, each with the file it goes to and the context that its template is
rendered in: one for each list, one for all phases, and two or three for each entity type.

The directory of the package holds the models and interfaces, the entity lists and the enumerations
in directories of their own. A file is named after the class in it.
-/

namespace TypedEntities

open TypedEntities.Metadata

/-! ## Where sources go -/

/-- The directory of a package. -/
structure Layout where
  directory : String
deriving DecidableEq, Repr, Inhabited

namespace Layout

/-- The file of a class in a directory of the package. -/
def javaFile (l : Layout) (directory className : String) : String :=
  Path.join (Path.join l.directory directory) (className ++ ".java")

/-- The file of a model or an interface. -/
def model (l : Layout) (className : String) : String := l.javaFile "model" className

/-- The file of an entity list. -/
def entityList (l : Layout) (className : String) : String := l.javaFile "entities" className

/-- The file of the enumeration of a list. -/
def list (l : Layout) (identifier : String) : String := l.javaFile "enums/lists" identifier

/-- The file of the enumerations of phases. -/
def phases (l : Layout) : String := l.javaFile "enums" "Phases"

end Layout

/-! ## Sources -/

/-- A source before it is rendered: what it holds. -/
inductive Source
  | list (source : ListSource)
  | phases (source : PhasesSource)
  | model (source : ModelSource)
  | interface (source : InterfaceSource)
  | entityList (source : EntityListSource)
deriving DecidableEq, Repr, Inhabited

namespace Source

/-- Which template renders the source. -/
def kind : Source → SourceKind
  | .list _ => .list
  | .phases _ => .phases
  | .model _ => .model
  | .interface _ => .interface
  | .entityList _ => .entityList

/-- The context in which the template is rendered. -/
def context : Source → Json
  | .list s => s.toJson
  | .phases s => s.toJson
  | .model m => m.toJson
  | .interface i => i.toJson
  | .entityList l => l.toJson

end Source

/-- The file of a source. -/
def Layout.file (l : Layout) : Source → String
  | .list s => l.list s.list.identifier
  | .phases _ => l.phases
  | .model m => l.model m.className
  | .interface i => l.model i.name
  | .entityList e => l.entityList e.className

/-- A package and the place of its sources. -/
structure Package where
  name : String
  layout : Layout
deriving DecidableEq, Repr, Inhabited

namespace Package

/-- The package of settings. -/
def ofSettings (s : Settings) : Package := ⟨s.package, ⟨s.packagePath⟩⟩

/-- The enumeration of a list. -/
def listSource (p : Package) (list : ListEnum) : Source := .list ⟨p.name, list⟩

/-- The enumerations of all phases. -/
def phasesSource (p : Package) (phases : Phases) : Source := .phases ⟨p.name, phases.groups⟩

/-- The sources of an entity type: its model, its interface and its list class if it has one. -/
def entitySources (p : Package) (r : Resolver) (entity : Entity) : Except Failure (List Source) := do
  let model ← ModelSource.of p.name entity r
  return [.model model, .interface (InterfaceSource.of p.name entity r.catalog)]
    ++ ((EntityListSource.of? p.name entity).map .entityList).toList

end Package

end TypedEntities
