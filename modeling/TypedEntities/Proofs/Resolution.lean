import Mathlib
import TypedEntities.Proofs.Assignment
import TypedEntities.Proofs.Reference
import TypedEntities.Proofs.Traversal

/-!
# References to one entity

A reference to one entity is resolved by the types without subtypes that are reached from its
targets (`Resolver.resolve_entity`): those that get a model are accepted by it, in the order in
which going down into one target after the other meets them, and the others call for an entity of
any type. What any reference accepts is never nothing, holds no type twice and names an entity of
any type last.
-/

namespace TypedEntities

open TypedEntities.Metadata
open TypedEntities.Java (TypeExpr)

namespace Catalog

/-- The types without subtypes in the order in which they are met, going down into one target after
the other. -/
def met (c : Catalog) (targets : List Target) : List String :=
  targets.flatMap fun target => c.traverse target.entityType

/-- A type gets no model if it is not known or left out. -/
theorem isGenerated_eq_false_iff {c : Catalog} {name : String} :
    c.isGenerated name = false ↔ c.contains name = false ∨ isExcluded name = true := by
  rw [isGenerated, Bool.and_eq_false_iff, Bool.not_eq_false']

/-- The types that get a model among those below the targets: each once, in the order in which they
are met first. -/
structure Models (c : Catalog) (targets : List Target) (types : List String) : Prop where
  mem_iff : ∀ entity, entity ∈ types ↔ c.Below targets entity ∧ c.isGenerated entity = true
  nodup : types.Nodup
  ordered : types.Pairwise fun a b => (c.met targets).idxOf a < (c.met targets).idxOf b

/-- A resolution by the types below the targets. -/
structure ByReach (c : Catalog) (targets : List Target) (resolution : Resolution) : Prop where
  typed_iff : (∃ types fallback, resolution = .typed types fallback)
    ↔ ∃ entity, c.Below targets entity ∧ c.isGenerated entity = true
  untyped_iff : resolution = .untyped
    ↔ ∀ entity, c.Below targets entity → c.isGenerated entity = false
  models : ∀ types fallback, resolution = .typed types fallback → c.Models targets types
  fallback_iff : ∀ types fallback, resolution = .typed types fallback →
    (fallback = true ↔ ∃ entity, c.Below targets entity
      ∧ (c.contains entity = false ∨ isExcluded entity = true))

end Catalog

/-- Types to choose from: at least one, none twice, and an entity of any type as the last one if at
all. -/
structure Offers (types : List TypeExpr) : Prop where
  ne_nil : types ≠ []
  nodup : types.Nodup
  generic_last : .generic ∉ types.dropLast

/-- One type is a choice. -/
theorem offers_singleton (t : TypeExpr) : Offers [t] where
  ne_nil := List.cons_ne_nil _ _
  nodup := List.nodup_singleton t
  generic_last := List.not_mem_nil

namespace Resolver

variable {r : Resolver} {owner : String} {field : Field} {resolution : Resolution}

/-! ## The types below the targets -/

/-- The types below the targets are those met on the way down, each at its first place. -/
theorem concreteTypes_eq (targets : List Target) :
    r.concreteTypes targets = (r.catalog.met targets).eraseDups := by
  unfold concreteTypes Catalog.met
  simp only [Catalog.leaves_eq_traverse]

theorem models_filter_concreteTypes (targets : List Target) :
    r.catalog.Models targets ((r.concreteTypes targets).filter r.catalog.isGenerated) where
  mem_iff entity := by rw [List.mem_filter, mem_concreteTypes_iff]
  nodup := (nodup_eraseDups _).filter _
  ordered := by
    rw [concreteTypes_eq]
    exact (pairwise_idxOf_eraseDups _).filter _

/-- A reference to one entity is resolved by what is reached. -/
theorem byReach_resolveEntity (targets : List Target) :
    r.catalog.ByReach targets (r.resolveEntity targets) := by
  have hmodels := models_filter_concreteTypes (r := r) targets
  have hnone : (r.concreteTypes targets).filter r.catalog.isGenerated = []
      ↔ ∀ entity, r.catalog.Below targets entity → r.catalog.isGenerated entity = false := by
    simp only [List.filter_eq_nil_iff, mem_concreteTypes_iff, Bool.not_eq_true]
  have hfallback :
      (!((r.concreteTypes targets).filter (not ∘ r.catalog.isGenerated)).isEmpty) = true
        ↔ ∃ entity, r.catalog.Below targets entity
          ∧ (r.catalog.contains entity = false ∨ isExcluded entity = true) := by
    simp only [Bool.not_eq_true', List.isEmpty_eq_false_iff_exists_mem, List.mem_filter,
      mem_concreteTypes_iff, Function.comp_apply, Catalog.isGenerated_eq_false_iff]
  rw [resolveEntity_eq_ite]
  by_cases hempty : (r.concreteTypes targets).filter r.catalog.isGenerated = []
  · -- no model is reached
    rw [if_pos hempty]
    have hall := hnone.mp hempty
    constructor
    · refine iff_of_false nofun fun hsome => ?_
      obtain ⟨entity, hbelow, hgenerated⟩ := hsome
      rw [hall entity hbelow] at hgenerated
      cases hgenerated
    · exact iff_of_true rfl hall
    · exact nofun
    · exact nofun
  · -- all models that are reached are offered
    rw [if_neg hempty]
    constructor
    · refine iff_of_true ⟨_, _, rfl⟩ ?_
      obtain ⟨entity, hentity⟩ := List.exists_mem_of_ne_nil _ hempty
      exact ⟨entity, (hmodels.mem_iff entity).mp hentity⟩
    · exact iff_of_false nofun fun hall => hempty (hnone.mpr hall)
    · intro types fallback heq
      cases heq
      exact hmodels
    · intro types fallback heq
      cases heq
      exact hfallback

/-! ## Every reference -/

theorem offers_resolveEntity (targets : List Target) : Offers (r.resolveEntity targets).types := by
  refine ⟨?_, nodup_resolveEntity targets, ?_⟩
  · rw [resolveEntity_eq_ite]
    split
    next => exact List.cons_ne_nil _ _
    next hsome => simp [Resolution.types, hsome]
  · rw [resolveEntity_eq_ite]
    split
    next => exact List.not_mem_nil
    next hsome =>
      rw [Resolution.types]
      split
      next => simp
      next =>
        rw [List.append_nil]
        intro hgeneric
        obtain ⟨entity, -, heq⟩ := List.mem_map.mp (List.mem_of_mem_dropLast hgeneric)
        cases heq

/-- Every reference that is resolved gives a choice. -/
theorem offers_of_resolve (h : r.resolve owner field = .ok resolution) :
    Offers resolution.types := by
  rcases resolve_cases h with ⟨t, htypes⟩ | rfl
  · rw [htypes]
    exact offers_singleton t
  · exact offers_resolveEntity field.targets

/-- A reference that holds no phase, no list and no collection refers to one entity. -/
theorem resolve_eq_resolveEntity (hphase : r.ownsPhase owner field = false)
    (hsingle : field.isMultiple = false) (htargets : field.targets ≠ [])
    (hlist : ∀ first rest, field.targets = first :: rest → first.entityType = listNodeType →
      owner = listNodeType) :
    r.resolve owner field = .ok (r.resolveEntity field.targets) := by
  obtain ⟨first, rest, hsplit⟩ := List.exists_cons_of_ne_nil htargets
  exact (Resolves.entity hphase hsplit (hlist first rest hsplit) hsingle).eq

/-- **References to one entity are resolved by what is reached from their targets**, whatever the
types, lists and phases are. What a reference accepts is in every case one type at least, none
twice, and an entity of any type as the last one if at all. -/
theorem resolve_entity (r : Resolver) (owner : String) (field : Field) :
    (r.ownsPhase owner field = false → field.isMultiple = false → field.targets ≠ [] →
      (∀ first rest, field.targets = first :: rest → first.entityType = listNodeType →
        owner = listNodeType) →
      ∃ resolution, r.resolve owner field = .ok resolution
        ∧ r.catalog.ByReach field.targets resolution)
      ∧ ∀ resolution, r.resolve owner field = .ok resolution → Offers resolution.types := by
  refine ⟨fun hphase hsingle htargets hlist => ?_, fun resolution h => offers_of_resolve h⟩
  exact ⟨_, resolve_eq_resolveEntity hphase hsingle htargets hlist,
    byReach_resolveEntity field.targets⟩

/-- Types below each other in two ways and in a circle, and among those without subtypes one that is
left out and one that is not known. -/
def workItems : Resolver :=
  ⟨.ofList [(Entity.named "work_item").addFeature (.subtypes ["story", "defect", "audit"]),
    (Entity.named "story").addFeature (.subtypes ["task", "defect", "work_item", "removed"]),
    Entity.named "task", Entity.named "defect", Entity.named "audit"], .empty, .empty⟩

/-- A reference to one entity, the second target below the first. -/
def toWorkItem : Field :=
  Field.referring "parent" false [Target.entity "work_item", Target.entity "task"]

theorem resolve_entity_workItems :
    workItems.ownsPhase "release" toWorkItem = false ∧ toWorkItem.isMultiple = false
      ∧ toWorkItem.targets ≠ []
      ∧ (∀ first rest, toWorkItem.targets = first :: rest → first.entityType = listNodeType →
        "release" = listNodeType)
      ∧ workItems.catalog.ByReach toWorkItem.targets (.typed ["task", "defect"] true)
      ∧ Offers (Resolution.typed ["task", "defect"] true).types := by
  have hphase : workItems.ownsPhase "release" toWorkItem = false := by decide +kernel
  have hlist : ∀ first rest, toWorkItem.targets = first :: rest →
      first.entityType = listNodeType → "release" = listNodeType := by
    intro first rest hsplit hfirst
    cases hsplit
    exact absurd hfirst (by decide)
  have hresolve :
      workItems.resolve "release" toWorkItem = .ok (.typed ["task", "defect"] true) := by
    decide +kernel
  obtain ⟨hentity, hoffers⟩ := resolve_entity workItems "release" toWorkItem
  obtain ⟨resolution, hok, hreach⟩ := hentity hphase rfl (List.cons_ne_nil _ _) hlist
  obtain rfl : resolution = .typed ["task", "defect"] true :=
    Except.ok.inj (hok.symm.trans hresolve)
  exact ⟨hphase, rfl, List.cons_ne_nil _ _, hlist, hreach, hoffers _ hresolve⟩

end Resolver

end TypedEntities
