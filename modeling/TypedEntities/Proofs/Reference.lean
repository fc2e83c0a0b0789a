import Mathlib
import TypedEntities.Proofs.Java.TypeExpr
import TypedEntities.Proofs.Outcome
import TypedEntities.Reference

/-!
# What stands behind a type

A resolver finds a type for a field only if it knows what the type needs: the entity type of a model
is in the catalog and gets a model, the enumeration of a list belongs to a logical name, and an
entity type that holds a phase has phases (`Resolver.backs_of_candidates`). A field accepts models,
or one type of another kind (`Resolver.shape_of_candidates`).

How a reference is resolved is said once: `Resolver.Resolves` has one case for each way in which it is
resolved or refused, and `Resolver.resolve_eq_iff` ties it to what runs. All else that is said of
references goes through its cases.
-/

namespace TypedEntities.Resolver

open TypedEntities.Metadata
open TypedEntities.Java (TypeExpr typeName scalarType)

variable {r : Resolver} {owner : String} {field : Field} {targets : List Target}

/-! ## How references are resolved -/

/-- How a reference field of an entity type is resolved: by the phase of its owner, by its first
target if that is a list, and by all targets otherwise. A list node refers to lists as to other
entities. -/
inductive Resolves (r : Resolver) (owner : String) (field : Field) :
    Except Failure Resolution → Prop
  | phase (hphase : r.ownsPhase owner field = true) :
      Resolves r owner field (.ok (.phase (typeName owner)))
  | noTargets (hphase : r.ownsPhase owner field = false) (htargets : field.targets = []) :
      Resolves r owner field
        (.error (.metadata owner field.name "reference field declares no targets"))
  | unnamedList {first : Target} {rest : List Target} (hphase : r.ownsPhase owner field = false)
      (htargets : field.targets = first :: rest) (hlist : first.entityType = listNodeType)
      (howner : owner ≠ listNodeType) (hname : first.logicalName = none) :
      Resolves r owner field
        (.error (.metadata owner field.name "list reference has no logical name"))
  | unknownList {first : Target} {rest : List Target} {logicalName : String}
      (hphase : r.ownsPhase owner field = false) (htargets : field.targets = first :: rest)
      (hlist : first.entityType = listNodeType) (howner : owner ≠ listNodeType)
      (hname : first.logicalName = some logicalName) (hunknown : r.lists.get? logicalName = none) :
      Resolves r owner field (.error (.unknownList owner field.name logicalName))
  | list {first : Target} {rest : List Target} {logicalName identifier : String}
      (hphase : r.ownsPhase owner field = false) (htargets : field.targets = first :: rest)
      (hlist : first.entityType = listNodeType) (howner : owner ≠ listNodeType)
      (hname : first.logicalName = some logicalName)
      (hknown : r.lists.get? logicalName = some identifier) :
      Resolves r owner field (.ok (.list identifier field.isMultiple))
  | collection {first : Target} {rest : List Target} (hphase : r.ownsPhase owner field = false)
      (htargets : field.targets = first :: rest)
      (hother : first.entityType = listNodeType → owner = listNodeType)
      (hmultiple : field.isMultiple = true) :
      Resolves r owner field (.ok (r.resolveCollection field.targets))
  | entity {first : Target} {rest : List Target} (hphase : r.ownsPhase owner field = false)
      (htargets : field.targets = first :: rest)
      (hother : first.entityType = listNodeType → owner = listNodeType)
      (hsingle : field.isMultiple = false) :
      Resolves r owner field (.ok (r.resolveEntity field.targets))

/-- What a reference is resolved to, in each of the cases. -/
theorem Resolves.eq {result : Except Failure Resolution} (h : r.Resolves owner field result) :
    r.resolve owner field = result := by
  cases h with
  | phase hphase => simp [resolve, hphase]
  | noTargets hphase htargets => simp [resolve, hphase, htargets]
  | unnamedList hphase htargets hlist howner hname =>
    simp [resolve, resolveList, hphase, htargets, hlist, howner, hname]
  | unknownList hphase htargets hlist howner hname hunknown =>
    simp [resolve, resolveList, hphase, htargets, hlist, howner, hname, hunknown]
  | list hphase htargets hlist howner hname hknown =>
    simp [resolve, resolveList, hphase, htargets, hlist, howner, hname, hknown]
  | collection hphase htargets hother hmultiple =>
    rw [htargets]
    simp only [resolve, hphase, htargets, hmultiple, Bool.false_eq_true, if_true, if_false]
    exact if_neg fun hnode => hnode.2 (hother hnode.1)
  | entity hphase htargets hother hsingle =>
    rw [htargets]
    simp only [resolve, hphase, htargets, hsingle, Bool.false_eq_true, if_false]
    exact if_neg fun hnode => hnode.2 (hother hnode.1)

/-- One of the cases applies. -/
theorem resolves (r : Resolver) (owner : String) (field : Field) :
    r.Resolves owner field (r.resolve owner field) := by
  cases hphase : r.ownsPhase owner field with
  | true => exact (Resolves.phase hphase).eq ▸ .phase hphase
  | false =>
    cases htargets : field.targets with
    | nil => exact (Resolves.noTargets hphase htargets).eq ▸ .noTargets hphase htargets
    | cons first rest =>
      -- what a list node refers to is an entity, even if it is a list node
      by_cases hlist : first.entityType = listNodeType ∧ owner ≠ listNodeType
      · obtain ⟨hlist, howner⟩ := hlist
        cases hname : first.logicalName with
        | none =>
          have h := Resolves.unnamedList hphase htargets hlist howner hname
          exact h.eq ▸ h
        | some logicalName =>
          cases hget : r.lists.get? logicalName with
          | none =>
            have h := Resolves.unknownList hphase htargets hlist howner hname hget
            exact h.eq ▸ h
          | some identifier =>
            have h := Resolves.list hphase htargets hlist howner hname hget
            exact h.eq ▸ h
      · have hother : first.entityType = listNodeType → owner = listNodeType := fun hnode =>
          by_contra fun howner => hlist ⟨hnode, howner⟩
        cases hmultiple : field.isMultiple with
        | true =>
          have h := Resolves.collection hphase htargets hother hmultiple
          exact h.eq ▸ h
        | false =>
          have h := Resolves.entity hphase htargets hother hmultiple
          exact h.eq ▸ h

theorem resolve_eq_iff {result : Except Failure Resolution} :
    r.resolve owner field = result ↔ r.Resolves owner field result :=
  ⟨fun h => h ▸ r.resolves owner field, Resolves.eq⟩

/-- A field accepts its scalar type, or what its reference is resolved to. -/
theorem candidates_cases (r : Resolver) (owner : String) (field : Field) :
    (field.isReference = false ∧ r.ownsPhase owner field = false
        ∧ r.candidates owner field = .ok [.scalar (scalarType field.fieldType)])
      ∨ ((field.isReference = true ∨ r.ownsPhase owner field = true)
        ∧ r.candidates owner field = (r.resolve owner field).map Resolution.types) := by
  unfold candidates
  split
  next h => exact .inr ⟨Bool.or_eq_true_iff.mp h, rfl⟩
  next h =>
    obtain ⟨hreference, hphase⟩ := Bool.or_eq_false_iff.mp (Bool.eq_false_iff.mpr h)
    exact .inl ⟨hreference, hphase, rfl⟩

/-- A reference field accepts what its reference is resolved to. -/
theorem candidates_of_isReference (h : field.isReference = true) :
    r.candidates owner field = (r.resolve owner field).map Resolution.types := by
  rcases r.candidates_cases owner field with ⟨hreference, -⟩ | ⟨-, hresolved⟩
  · cases hreference.symm.trans h
  · exact hresolved

/-- The types that a field accepts are its scalar type, or those of a resolution. -/
theorem cases_of_candidates {types : List TypeExpr} (h : r.candidates owner field = .ok types) :
    (field.isReference = false ∧ types = [.scalar (scalarType field.fieldType)])
      ∨ ∃ resolution, r.resolve owner field = .ok resolution ∧ resolution.types = types := by
  rcases r.candidates_cases owner field with ⟨hreference, -, hscalar⟩ | ⟨-, hresolved⟩
  · exact .inl ⟨hreference, Except.ok.inj (h.symm.trans hscalar)⟩
  · exact .inr (Outcome.map_eq_ok.mp (hresolved.symm.trans h))

/-! ## Collections and single entities -/

/-- Several entities are always given as a collection. -/
theorem exists_resolveCollection_eq (r : Resolver) (targets : List Target) :
    ∃ entity, r.resolveCollection targets = .collection entity := by
  unfold resolveCollection
  split
  next => exact ⟨_, rfl⟩
  next => exact ⟨_, rfl⟩

/-- A reference to one entity, by the types below its targets. -/
theorem resolveEntity_eq_ite (r : Resolver) (targets : List Target) :
    r.resolveEntity targets
      = if (r.concreteTypes targets).filter r.catalog.isGenerated = [] then .untyped
        else .typed ((r.concreteTypes targets).filter r.catalog.isGenerated)
          (!((r.concreteTypes targets).filter (not ∘ r.catalog.isGenerated)).isEmpty) := by
  unfold resolveEntity
  rw [List.partition_eq_filter_filter]
  simp only [List.isEmpty_iff]

/-- One entity is given as a model or as an entity of any type. -/
theorem resolveEntity_cases (r : Resolver) (targets : List Target) :
    r.resolveEntity targets = .untyped
      ∨ ∃ types fallback, r.resolveEntity targets = .typed types fallback := by
  rw [resolveEntity_eq_ite]
  split
  next => exact .inl rfl
  next => exact .inr ⟨_, _, rfl⟩

/-- The models that a reference to one entity accepts are those of the types below its targets that
get one. -/
theorem model_mem_resolveEntity_iff {entity : String} :
    .model entity ∈ (r.resolveEntity targets).types
      ↔ entity ∈ r.concreteTypes targets ∧ r.catalog.isGenerated entity = true := by
  rw [← List.mem_filter, resolveEntity_eq_ite]
  split
  next hnone => simp [Resolution.types, hnone]
  next =>
    rw [Resolution.types, List.mem_append,
      List.mem_map_of_injective fun _ _ heq => TypeExpr.model.inj heq]
    refine or_iff_left fun hgeneric => ?_
    split at hgeneric
    next => cases List.mem_singleton.mp hgeneric
    next => cases hgeneric

/-- A type below the targets without a model makes room for an entity of any type. -/
theorem generic_mem_resolveEntity {entity : String} (h : entity ∈ r.concreteTypes targets)
    (hgenerated : r.catalog.isGenerated entity = false) :
    .generic ∈ (r.resolveEntity targets).types := by
  rw [resolveEntity_eq_ite]
  split
  next => exact List.mem_singleton_self _
  next =>
    have hothers : ((r.concreteTypes targets).filter (not ∘ r.catalog.isGenerated)).isEmpty
        = false := by
      rw [List.isEmpty_eq_false_iff_exists_mem]
      exact ⟨entity, List.mem_filter.mpr ⟨h, by simp [hgenerated]⟩⟩
    rw [hothers]
    exact List.mem_append_right _ (List.mem_singleton_self _)

/-! ## What a resolver knows -/

/-- What a resolver knows of a type that it finds for a field. -/
def Backs (r : Resolver) : TypeExpr → Prop
  | .scalar javaType => ∃ fieldType, javaType = scalarType fieldType
  | .model entity => r.catalog.isGenerated entity
  | .generic => True
  | .list identifier _ => ∃ logicalName, r.lists.get? logicalName = some identifier
  | .phase key => r.phases.contains key
  | .collection none => True
  | .collection (some entity) => r.catalog.isGenerated entity

variable {resolution : Resolution}

/-- Models of types are models, and so is an entity of any type beside them. -/
theorem isModel_of_mem_typed {types : List String} {fallback : Bool} {t : TypeExpr}
    (h : t ∈ (Resolution.typed types fallback).types) : t.isModel = true := by
  rcases List.mem_append.mp h with hmodel | hgeneric
  · obtain ⟨entity, -, rfl⟩ := List.mem_map.mp hmodel
    rfl
  · split at hgeneric
    next => exact List.mem_singleton.mp hgeneric ▸ rfl
    next => cases hgeneric

/-- A reference to one entity accepts models only. -/
theorem isModel_of_mem_resolveEntity {t : TypeExpr} (h : t ∈ (r.resolveEntity targets).types) :
    t.isModel = true := by
  rcases r.resolveEntity_cases targets with heq | ⟨types, fallback, heq⟩
  · rw [heq] at h
    exact List.mem_singleton.mp h ▸ rfl
  · rw [heq] at h
    exact isModel_of_mem_typed h

/-- The types of a resolution are models, or one type of another kind that is no scalar. -/
theorem shape_types (resolution : Resolution) :
    (∀ t ∈ resolution.types, t.isModel)
      ∨ ∃ t, resolution.types = [t] ∧ t.isModel = false ∧ ∀ javaType, t ≠ .scalar javaType := by
  cases resolution with
  | phase key => exact .inr ⟨.phase key, rfl, rfl, nofun⟩
  | list identifier multiple => exact .inr ⟨.list identifier multiple, rfl, rfl, nofun⟩
  | collection entity => exact .inr ⟨.collection entity, rfl, rfl, nofun⟩
  | typed types fallback => exact .inl fun _ => isModel_of_mem_typed
  | untyped => exact .inl (List.forall_mem_singleton.mpr rfl)

/-- A collection is of one type only if that gets a model. -/
theorem backs_of_resolveCollection (targets : List Target) :
    ∀ t ∈ (r.resolveCollection targets).types, r.Backs t := by
  unfold resolveCollection
  split
  next only =>
    refine List.forall_mem_singleton.mpr ?_
    split
    next hgenerated => exact hgenerated
    next => trivial
  next => exact List.forall_mem_singleton.mpr trivial

/-- A reference to one entity accepts models only of types that get one. -/
theorem backs_of_resolveEntity (targets : List Target) :
    ∀ t ∈ (r.resolveEntity targets).types, r.Backs t := by
  intro t ht
  rcases TypeExpr.eq_generic_or_model (isModel_of_mem_resolveEntity ht) with rfl | ⟨entity, rfl⟩
  · trivial
  · exact (model_mem_resolveEntity_iff.mp ht).2

/-- A resolver knows what it resolves a reference to. -/
theorem backs_of_resolve (h : r.resolve owner field = .ok resolution) :
    ∀ t ∈ resolution.types, r.Backs t := by
  cases resolve_eq_iff.mp h with
  | phase hphase => exact List.forall_mem_singleton.mpr (Bool.and_eq_true_iff.mp hphase).2
  | list _ _ _ _ _ hknown => exact List.forall_mem_singleton.mpr ⟨_, hknown⟩
  | collection => exact backs_of_resolveCollection _
  | entity => exact backs_of_resolveEntity _

/-- **A resolver knows what it names.** -/
theorem backs_of_candidates {types : List TypeExpr} (h : r.candidates owner field = .ok types) :
    ∀ t ∈ types, r.Backs t := by
  rcases cases_of_candidates h with ⟨-, rfl⟩ | ⟨resolution, hresolve, rfl⟩
  · exact List.forall_mem_singleton.mpr ⟨field.fieldType, rfl⟩
  · exact backs_of_resolve hresolve

/-- Only a field that holds the phase of its owner accepts phases. -/
theorem resolve_eq_phase_iff {key : String} :
    r.resolve owner field = .ok (.phase key)
      ↔ r.ownsPhase owner field = true ∧ typeName owner = key := by
  constructor
  · intro h
    generalize hresolution : Resolution.phase key = resolution at h
    cases resolve_eq_iff.mp h with
    | phase hphase => exact ⟨hphase, (Resolution.phase.inj hresolution).symm⟩
    | list => cases hresolution
    | collection =>
      obtain ⟨entity, heq⟩ := r.exists_resolveCollection_eq field.targets
      cases hresolution.trans heq
    | entity =>
      rcases r.resolveEntity_cases field.targets with heq | ⟨types, fallback, heq⟩ <;>
        cases hresolution.trans heq
  · rintro ⟨hphase, rfl⟩
    exact (Resolves.phase hphase).eq

/-! ## Models and other types -/

/-- **A field accepts models, or one type of another kind**; a scalar is not that of a reference. -/
theorem shape_of_candidates {types : List TypeExpr} (h : r.candidates owner field = .ok types) :
    (∀ t ∈ types, t.isModel)
      ∨ ∃ t, types = [t] ∧ t.isModel = false ∧ ∀ javaType, t = .scalar javaType →
        ∃ fieldType ≠ FieldType.reference, javaType = scalarType fieldType := by
  rcases cases_of_candidates h with ⟨hreference, rfl⟩ | ⟨resolution, -, rfl⟩
  · refine .inr ⟨_, rfl, rfl, fun javaType heq => ⟨field.fieldType, ?_, ?_⟩⟩
    · exact of_decide_eq_false hreference
    · exact (TypeExpr.scalar.inj heq).symm
  · rcases shape_types resolution with hmodels | ⟨t, htypes, hmodel, hscalar⟩
    · exact .inl hmodels
    · exact .inr ⟨t, htypes, hmodel, fun javaType heq => absurd heq (hscalar javaType)⟩

/-! ## Each type once -/

/-- A reference accepts one type unless it holds a single entity. -/
theorem resolve_cases (h : r.resolve owner field = .ok resolution) :
    (∃ t, resolution.types = [t]) ∨ resolution = r.resolveEntity field.targets := by
  cases resolve_eq_iff.mp h with
  | phase => exact .inl ⟨_, rfl⟩
  | list => exact .inl ⟨_, rfl⟩
  | collection =>
    obtain ⟨entity, heq⟩ := r.exists_resolveCollection_eq field.targets
    rw [heq]
    exact .inl ⟨_, rfl⟩
  | entity => exact .inr rfl

/-- A reference to one entity accepts each type once. -/
theorem nodup_resolveEntity (targets : List Target) : (r.resolveEntity targets).types.Nodup := by
  rw [resolveEntity_eq_ite]
  split
  next => exact List.nodup_singleton _
  next =>
    have htypes : ((r.concreteTypes targets).filter r.catalog.isGenerated).Nodup :=
      (nodup_eraseDups _).filter _
    have hmodels := htypes.map fun _ _ heq => TypeExpr.model.inj heq
    refine List.nodup_append'.mpr ⟨hmodels, ?_, ?_⟩
    · split
      next => exact List.nodup_singleton _
      next => exact .nil
    · -- a model is not the generic class
      intro t ht hgeneric
      obtain ⟨entity, -, rfl⟩ := List.mem_map.mp ht
      split at hgeneric
      next => cases List.mem_singleton.mp hgeneric
      next => cases hgeneric

/-- A field accepts each type once. -/
theorem nodup_candidates {types : List TypeExpr} (h : r.candidates owner field = .ok types) :
    types.Nodup := by
  rcases cases_of_candidates h with ⟨-, rfl⟩ | ⟨resolution, hresolve, rfl⟩
  · exact List.nodup_singleton _
  · rcases resolve_cases hresolve with ⟨t, htypes⟩ | rfl
    · rw [htypes]
      exact List.nodup_singleton t
    · exact nodup_resolveEntity _

end TypedEntities.Resolver
