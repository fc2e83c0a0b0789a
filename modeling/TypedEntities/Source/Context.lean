import TypedEntities.Enumeration.Lists
import TypedEntities.Enumeration.Phases
import TypedEntities.Source.Model

/-!
# Contexts

The context in which the template of a source is rendered: what the source holds, as a JSON value.
-/

namespace TypedEntities

/-- A field of a model, with its getter and all its setters. -/
def FieldSource.toJson (f : FieldSource) : Json :=
  .object [("name", .text f.name), ("label", .text f.label), ("accessor", .text f.accessor),
    ("getter", f.getter.toJson), ("setters", .array (f.setters.map Accessor.toJson)),
    ("required", .bool f.required), ("sortable", .bool f.sortable)]

/-- A parameter of a constructor. The accessor is named so that the constructor can call its setter.
-/
def Parameter.toJson (p : Parameter) : Json :=
  .object [("member", .text p.member), ("accessor", .text p.accessor),
    ("java_type", .text p.javaType)]

/-- A constructor by its parameters. -/
def Constructor.toJson (c : Constructor) : Json :=
  .object [("parameters", .array (c.parameters.map Parameter.toJson))]

/-- What the template of models reads. -/
def ModelSource.toJson (m : ModelSource) : Json :=
  .object [("package", .text m.package), ("entity_name", .text m.entity),
    ("class_name", .text m.className), ("interface_name", .text m.interface),
    ("fields", .array (m.fields.map FieldSource.toJson)),
    ("constructors", .array (m.constructors.map Constructor.toJson))]

/-- What the template of interfaces reads. -/
def InterfaceSource.toJson (i : InterfaceSource) : Json :=
  .object [("package", .text i.package), ("entity_name", .text i.entity),
    ("interface_name", .text i.name), ("super_interface", .text i.superInterface)]

/-- The constant that stands for a field in an entity list. -/
def FieldConstant.toJson (c : FieldConstant) : Json :=
  .object [("identifier", .text c.identifier), ("name", .text c.name)]

/-- What the template of entity lists reads. A method that the server does not allow is there as
false. -/
def EntityListSource.toJson (l : EntityListSource) : Json :=
  .object [("package", .text l.package), ("entity_name", .text l.entity),
    ("class_name", .text l.className), ("model_class", .text l.modelClass),
    ("url", .text l.url), ("can_get", .bool l.canGet), ("can_create", .bool l.canCreate),
    ("can_update", .bool l.canUpdate), ("can_delete", .bool l.canDelete),
    ("available_fields", .array (l.availableFields.map FieldConstant.toJson)),
    ("sortable_fields", .array (l.sortableFields.map FieldConstant.toJson))]

/-- The enumeration of a list, in a package. -/
structure ListSource where
  package : String
  list : ListEnum
deriving DecidableEq, Repr, Inhabited

/-- A value of a list, of which a template only asks whether it is deprecated. -/
def ListItem.toJson (i : ListItem) : Json :=
  .object [("identifier", .text i.identifier), ("id", .text i.id), ("name", .text i.name),
    ("deprecated", .bool i.isDeprecated)]

/-- What the template of lists reads. A list without a logical name has none here. -/
def ListSource.toJson (s : ListSource) : Json :=
  .object [("package", .text s.package), ("identifier", .text s.list.identifier),
    ("logical_name", .ofText? s.list.logicalName),
    ("items", .array (s.list.items.map ListItem.toJson))]

/-- The class of the enumerations of phases, in a package. -/
structure PhasesSource where
  package : String
  groups : List PhaseGroup
deriving DecidableEq, Repr, Inhabited

/-- A phase by its constant, its id and its name. -/
def PhaseItem.toJson (i : PhaseItem) : Json :=
  .object [("identifier", .text i.identifier), ("id", .text i.id), ("name", .text i.name)]

/-- The phases of one entity type, and the enumeration that holds them. -/
def PhaseGroup.toJson (g : PhaseGroup) : Json :=
  .object [("enum_name", .text g.enumName), ("entity", .text g.entity),
    ("phases", .array (g.items.map PhaseItem.toJson))]

/-- What the template of phases reads. -/
def PhasesSource.toJson (s : PhasesSource) : Json :=
  .object [("package", .text s.package), ("groups", .array (s.groups.map PhaseGroup.toJson))]

end TypedEntities
