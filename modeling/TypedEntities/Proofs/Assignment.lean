import Mathlib
import TypedEntities.Proofs.Leaves
import TypedEntities.Proofs.Reference

/-!
# What can be assigned

A field that refers to one entity accepts models of the types without subtypes below its targets, and
an entity of any type if one of them gets no model. So a target can be assigned as soon as it reaches
a type without subtypes (`Resolver.assigns_iff`). A target among types that are only below each other
reaches none: it adds nothing to what the field accepts, and beside another target it cannot be
assigned (`Resolver.not_assigns_circle`).
-/

namespace TypedEntities

open TypedEntities.Metadata
open TypedEntities.Java (TypeExpr)

/-- With the given types a target can be assigned: as a model of a type that is reached from it, or
as an entity of any type. -/
def Catalog.Assigns (c : Catalog) (types : List TypeExpr) (target : String) : Prop :=
  (∃ entity, .model entity ∈ types ∧ c.Reaches target entity) ∨ .generic ∈ types

/-- A type without subtypes that is reached from one of the targets. -/
def Catalog.Below (c : Catalog) (targets : List Target) (entity : String) : Prop :=
  c.subtypes entity = [] ∧ ∃ target ∈ targets, c.Reaches target.entityType entity

namespace Resolver

variable {r : Resolver} {owner : String} {field : Field} {resolution : Resolution}

/-! ## The types below the targets -/

/-- The types below targets are those without subtypes that one of the targets reaches. -/
theorem mem_concreteTypes_iff {targets : List Target} {entity : String} :
    entity ∈ r.concreteTypes targets ↔ r.catalog.Below targets entity := by
  rw [concreteTypes, List.mem_eraseDups, List.mem_flatMap, Catalog.Below]
  simp only [Catalog.mem_leaves_iff]
  tauto

/-- A type below the targets is accepted by its model or as an entity of any type. -/
theorem model_or_generic_of_mem {targets : List Target} {entity : String}
    (h : entity ∈ r.concreteTypes targets) :
    .model entity ∈ (r.resolveEntity targets).types
      ∨ .generic ∈ (r.resolveEntity targets).types := by
  cases hgenerated : r.catalog.isGenerated entity with
  | true => exact .inl (model_mem_resolveEntity_iff.mpr ⟨h, hgenerated⟩)
  | false => exact .inr (generic_mem_resolveEntity h hgenerated)

/-! ## Targets of a reference to one entity -/

/-- A reference that accepts models is resolved by the types below its targets. -/
theorem eq_resolveEntity (h : r.resolve owner field = .ok resolution)
    (hmodels : resolution = .untyped ∨ ∃ types fallback, resolution = .typed types fallback) :
    resolution = r.resolveEntity field.targets := by
  cases resolve_eq_iff.mp h with
  | phase => simp at hmodels
  | list => simp at hmodels
  | collection =>
    obtain ⟨entity, heq⟩ := r.exists_resolveCollection_eq field.targets
    simp [heq] at hmodels
  | entity => rfl

/-- **A target can be assigned** if and only if it reaches a type without subtypes or the field
accepts an entity of any type. -/
theorem assigns_iff (h : r.resolve owner field = .ok resolution)
    (hmodels : resolution = .untyped ∨ ∃ types fallback, resolution = .typed types fallback)
    {target : Target} (htarget : target ∈ field.targets) :
    r.catalog.Assigns resolution.types target.entityType
      ↔ (∃ leaf, r.catalog.subtypes leaf = [] ∧ r.catalog.Reaches target.entityType leaf)
        ∨ .generic ∈ resolution.types := by
  rw [eq_resolveEntity h hmodels]
  constructor
  · intro hassigns
    rcases hassigns with ⟨entity, hmodel, hreaches⟩ | hgeneric
    · obtain ⟨hleaf, -⟩ := mem_concreteTypes_iff.mp (model_mem_resolveEntity_iff.mp hmodel).1
      exact .inl ⟨entity, hleaf, hreaches⟩
    · exact .inr hgeneric
  · intro hx
    rcases hx with ⟨leaf, hleaf, hreaches⟩ | hgeneric
    · have hmem := mem_concreteTypes_iff.mpr (.intro hleaf ⟨target, htarget, hreaches⟩)
      exact (model_or_generic_of_mem hmem).imp_left fun hmodel => ⟨leaf, hmodel, hreaches⟩
    · exact .inr hgeneric

/-! ## A circle of types -/

/-- Two types that are below each other, and one that stands alone. -/
def circle : Resolver :=
  ⟨.ofList [(Entity.named "epic").addFeature (.subtypes ["feature"]),
    (Entity.named "feature").addFeature (.subtypes ["epic"]), Entity.named "task"], .empty, .empty⟩

/-- A reference to one entity, of the circle or of the type that stands alone. -/
def toCircle : Field := Field.referring "parent" false [Target.entity "epic", Target.entity "task"]

theorem resolve_circle : circle.resolve "defect" toCircle = .ok (.typed ["task"] false) := by
  decide +kernel

theorem assigns_circle_task :
    circle.resolve "defect" toCircle = .ok (.typed ["task"] false)
      ∧ Target.entity "task" ∈ toCircle.targets
      ∧ circle.catalog.Assigns (Resolution.typed ["task"] false).types "task" := by
  have htask : Target.entity "task" ∈ toCircle.targets := by decide
  have hleaf : circle.catalog.subtypes "task" = [] := by decide +kernel
  exact ⟨resolve_circle, htask,
    (assigns_iff resolve_circle (.inr ⟨_, _, rfl⟩) htask).mpr (.inl ⟨"task", hleaf, .refl⟩)⟩

theorem not_assigns_circle :
    ¬∀ (r : Resolver) (owner : String) (field : Field) (resolution : Resolution),
      r.resolve owner field = .ok resolution →
      (resolution = .untyped ∨ ∃ types fallback, resolution = .typed types fallback) →
      ∀ target ∈ field.targets, r.catalog.Assigns resolution.types target.entityType := by
  intro hall
  -- from one of the two types only the two can be reached
  have hstays : ∀ x, circle.catalog.Reaches "epic" x → x = "epic" ∨ x = "feature" := by
    intro x hx
    induction hx with
    | refl => exact .inl rfl
    | @tail y z _ hsub ih =>
      have hepic : circle.catalog.subtypes "epic" = ["feature"] := by decide +kernel
      have hfeature : circle.catalog.subtypes "feature" = ["epic"] := by decide +kernel
      rcases ih with rfl | rfl
      · exact .inr (List.mem_singleton.mp (hepic ▸ hsub))
      · exact .inl (List.mem_singleton.mp (hfeature ▸ hsub))
  rcases hall circle "defect" toCircle _ resolve_circle (.inr ⟨_, _, rfl⟩) (Target.entity "epic")
      (by decide) with ⟨entity, hmodel, hreaches⟩ | hgeneric
  · obtain rfl : entity = "task" := by simpa [Resolution.types] using hmodel
    rcases hstays _ hreaches with heq | heq <;> exact absurd heq (by decide)
  · exact absurd hgeneric (by decide)

end Resolver

end TypedEntities
