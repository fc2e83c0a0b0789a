import TypedEntities.Failure
import TypedEntities.Template.EntityList
import TypedEntities.Template.Model
import TypedEntities.Template.Parser
import TypedEntities.Template.Render

/-!
# Named templates

An engine knows templates by name: those of the sources that are generated, and those registered
later, which may replace them.
-/

namespace TypedEntities

/-- The sources that a run writes, one template each. -/
inductive SourceKind
  | model
  | interface
  | entityList
  | list
  | phases
deriving DecidableEq, Repr, Inhabited

namespace SourceKind

/-- The name of the template. -/
def templateName : SourceKind → String
  | .model => "model/entity_model"
  | .interface => "model/entity"
  | .entityList => "entities/entity_list"
  | .list => "enums/list"
  | .phases => "enums/phases"

/-- The template. -/
def template : SourceKind → List Template.Node
  | .model => Template.entityModel
  | .interface => Template.entity
  | .entityList => Template.entityList
  | .list => Template.list
  | .phases => Template.phases

/-- Every kind of source. -/
def all : List SourceKind := [.model, .interface, .entityList, .list, .phases]

end SourceKind

/-- Templates by name. -/
structure Engine where
  templates : Table String (List Template.Node)
deriving Inhabited

namespace Engine

/-- The engine that knows the templates of the sources. -/
def standard : Engine :=
  ⟨Table.ofList (SourceKind.all.map fun kind => (kind.templateName, kind.template))⟩

/-- The engine with one template more, read from its text. A former template of the same name is
replaced. -/
def register (e : Engine) (name source : String) : Except Failure Engine :=
  match Template.parse? source with
  | some template => .ok ⟨e.templates.insert name template⟩
  | none => .error (.template name "failed to register template: not a template")

/-- The text of a named template in a context. -/
def render (e : Engine) (name : String) (context : Json) : Except Failure String :=
  match e.templates.get? name with
  | none => .error (.template name "no template has this name")
  | some template =>
    match Template.render? template context with
    | some text => .ok text
    | none => .error (.template name "a place has no value")

end Engine

end TypedEntities
