import Mathlib
import TypedEntities.Proofs.Table
import TypedEntities.Proofs.Template.Shape
import TypedEntities.Source.Emitted

/-!
# Sources can be rendered

The context of a source has the shape that is given here for its kind, whatever the source holds
(`Source.fits_context`), and the template of the kind is admitted for that shape
(`SourceKind.admits_template`). So every source can be rendered: `Source.render_ok`.
-/

namespace TypedEntities

open TypedEntities.Template (Shape Scope)

/-! ## The shapes of contexts -/

/-- An accessor names a class that holds scalars and an element type only where it needs them. -/
def Accessor.shape : Shape :=
  .record [("java_type", .text), ("kind", .text), ("field_model", .optionalText),
    ("element_type", .optionalText)]

/-- A field of a model. -/
def FieldSource.shape : Shape :=
  .record [("name", .text), ("label", .text), ("accessor", .text), ("getter", Accessor.shape),
    ("setters", .list Accessor.shape), ("required", .truth), ("sortable", .truth)]

/-- A parameter of a constructor. -/
def Parameter.shape : Shape :=
  .record [("member", .text), ("accessor", .text), ("java_type", .text)]

/-- A constructor, which is nothing but its parameters. -/
def Constructor.shape : Shape := .record [("parameters", .list Parameter.shape)]

/-- The shape for the template of models. -/
def ModelSource.shape : Shape :=
  .record [("package", .text), ("entity_name", .text), ("class_name", .text),
    ("interface_name", .text), ("fields", .list FieldSource.shape),
    ("constructors", .list Constructor.shape)]

/-- The shape for the template of interfaces. -/
def InterfaceSource.shape : Shape :=
  .record [("package", .text), ("entity_name", .text), ("interface_name", .text),
    ("super_interface", .text)]

/-- A constant of an entity list. -/
def FieldConstant.shape : Shape := .record [("identifier", .text), ("name", .text)]

/-- The shape for the template of entity lists. -/
def EntityListSource.shape : Shape :=
  .record [("package", .text), ("entity_name", .text), ("class_name", .text),
    ("model_class", .text), ("url", .text), ("can_get", .truth), ("can_create", .truth),
    ("can_update", .truth), ("can_delete", .truth),
    ("available_fields", .list FieldConstant.shape), ("sortable_fields", .list FieldConstant.shape)]

/-- A value of a list. -/
def ListItem.shape : Shape :=
  .record [("identifier", .text), ("id", .text), ("name", .text), ("deprecated", .truth)]

/-- The shape for the template of lists: the one text that may be missing is the logical name. -/
def ListSource.shape : Shape :=
  .record [("package", .text), ("identifier", .text), ("logical_name", .optionalText),
    ("items", .list ListItem.shape)]

/-- A phase of an entity type. -/
def PhaseItem.shape : Shape := .record [("identifier", .text), ("id", .text), ("name", .text)]

/-- The phases of one entity type. -/
def PhaseGroup.shape : Shape :=
  .record [("enum_name", .text), ("entity", .text), ("phases", .list PhaseItem.shape)]

/-- The shape for the template of phases. -/
def PhasesSource.shape : Shape :=
  .record [("package", .text), ("groups", .list PhaseGroup.shape)]

/-- The shape of the contexts of a kind of source. -/
def SourceKind.shape : SourceKind → Shape
  | .model => ModelSource.shape
  | .interface => InterfaceSource.shape
  | .entityList => EntityListSource.shape
  | .list => ListSource.shape
  | .phases => PhasesSource.shape

/-! ## Contexts have their shapes -/

/-- The texts that an accessor may be without are the two for which its shape allows it. -/
theorem Accessor.fits_toJson (a : Accessor) : shape.Fits a.toJson := by
  simp [shape, toJson, Shape.record, Json.member?]

/-- A field fits however many setters it has. -/
theorem FieldSource.fits_toJson (f : FieldSource) : shape.Fits f.toJson := by
  simp [shape, toJson, Shape.record, Json.member?, Accessor.fits_toJson]

theorem Parameter.fits_toJson (p : Parameter) : shape.Fits p.toJson := by
  simp [shape, toJson, Shape.record, Json.member?]

/-- A constructor fits however many parameters it has. -/
theorem Constructor.fits_toJson (c : Constructor) : shape.Fits c.toJson := by
  simp [shape, toJson, Shape.record, Json.member?, Parameter.fits_toJson]

/-- A model fits with all its fields and constructors. -/
theorem ModelSource.fits_toJson (m : ModelSource) : shape.Fits m.toJson := by
  simp [shape, toJson, Shape.record, Json.member?, FieldSource.fits_toJson,
    Constructor.fits_toJson]

/-- An interface holds four texts, all of them there. -/
theorem InterfaceSource.fits_toJson (i : InterfaceSource) : shape.Fits i.toJson := by
  simp [shape, toJson, Shape.record, Json.member?]

theorem FieldConstant.fits_toJson (c : FieldConstant) : shape.Fits c.toJson := by
  simp [shape, toJson, Shape.record, Json.member?]

/-- An entity list fits with all its constants. -/
theorem EntityListSource.fits_toJson (l : EntityListSource) : shape.Fits l.toJson := by
  simp [shape, toJson, Shape.record, Json.member?, FieldConstant.fits_toJson]

theorem ListItem.fits_toJson (i : ListItem) : shape.Fits i.toJson := by
  simp [shape, toJson, Shape.record, Json.member?]

/-- A list fits with or without a logical name. -/
theorem ListSource.fits_toJson (s : ListSource) : shape.Fits s.toJson := by
  simp [shape, toJson, Shape.record, Json.member?, ListItem.fits_toJson]

theorem PhaseItem.fits_toJson (i : PhaseItem) : shape.Fits i.toJson := by
  simp [shape, toJson, Shape.record, Json.member?]

theorem PhaseGroup.fits_toJson (g : PhaseGroup) : shape.Fits g.toJson := by
  simp [shape, toJson, Shape.record, Json.member?, PhaseItem.fits_toJson]

/-- The phases fit, of however many entity types they are. -/
theorem PhasesSource.fits_toJson (s : PhasesSource) : shape.Fits s.toJson := by
  simp [shape, toJson, Shape.record, Json.member?, PhaseGroup.fits_toJson]

/-- Whatever a source holds, its context has the shape of its kind. -/
theorem Source.fits_context (s : Source) : s.kind.shape.Fits s.context := by
  cases s with
  | list s => exact s.fits_toJson
  | phases s => exact s.fits_toJson
  | model m => exact m.fits_toJson
  | interface i => exact i.fits_toJson
  | entityList l => exact l.fits_toJson

/-! ## Templates suit the shapes -/

/-- Every place of a template has a value in the contexts of its kind. -/
theorem SourceKind.admits_template (kind : SourceKind) :
    (Scope.outermost kind.shape).admitsAll kind.template = true := by
  cases kind <;> decide +kernel

/-- The engine of a run knows the template of every kind. -/
theorem Engine.get?_standard (kind : SourceKind) :
    standard.templates.get? kind.templateName = some kind.template := by
  have hnames : ((SourceKind.all.map fun k => (k.templateName, k.template)).map Prod.fst).Nodup := by
    decide
  refine (Table.get?_ofList_eq_some_iff hnames).mpr ?_
  refine List.mem_map.mpr ⟨kind, ?_, rfl⟩
  cases kind <;> decide

/-- The text that the template of a source gives is what the engine renders. -/
theorem Source.exists_render (s : Source) :
    ∃ text, Template.render? s.kind.template s.context = some text
      ∧ Engine.standard.render s.kind.templateName s.context = .ok text := by
  obtain ⟨text, htext⟩ := Template.exists_render? s.kind.admits_template s.fits_context
  refine ⟨text, htext, ?_⟩
  simp only [Engine.render, Engine.get?_standard, htext]

/-- **Every source can be rendered**, whatever texts it holds and however many entries its lists
have: models and interfaces of all entity types with all fields, constructors and parameters, lists
with or without a logical name, phases, and entity lists. -/
theorem Source.render_ok (s : Source) :
    ∃ text, Engine.standard.render s.kind.templateName s.context = .ok text := by
  obtain ⟨text, -, hrender⟩ := s.exists_render
  exact ⟨text, hrender⟩

end TypedEntities
