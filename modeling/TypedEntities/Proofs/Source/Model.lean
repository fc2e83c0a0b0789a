import Mathlib
import TypedEntities.Proofs.Overload
import TypedEntities.Proofs.Reference
import TypedEntities.Source.Model

/-!
# The types of a model

A model names types in its getters and setters and in the parameters of its constructors. All of
them are made of types that the resolver finds for a field of the entity type:
`ModelSource.uses_of`.
-/

namespace TypedEntities

open TypedEntities.Metadata
open TypedEntities.Java (TypeExpr)

/-- The accessors of a field are made of accepted types with a property. -/
structure FieldSource.Uses (package : String) (P : TypeExpr → Prop) (f : FieldSource)
    (types : List TypeExpr) : Prop where
  holds : ∀ t ∈ types, P t
  getter : f.getter = Accessor.getterOf package types
  setters : ∀ a ∈ f.setters, ∃ t ∈ types, a = Accessor.ofType package t

/-- A parameter has a type with a property. -/
def Parameter.Uses (package : String) (P : TypeExpr → Prop) (q : Parameter) : Prop :=
  ∃ name t, P t ∧ q = Parameter.of package (name, t)

/-- All types that a model names are made of types with a property. -/
structure ModelSource.Uses (package : String) (P : TypeExpr → Prop) (m : ModelSource) : Prop where
  package_eq : m.package = package
  fields : ∀ f ∈ m.fields, ∃ types, f.Uses package P types
  parameters : ∀ c ∈ m.constructors, ∀ q ∈ c.parameters, q.Uses package P

theorem FieldSource.uses_of {package : String} {P : TypeExpr → Prop} (field : Field)
    {types : List TypeExpr} (h : ∀ t ∈ types, P t) :
    (FieldSource.of package field types).Uses package P types where
  holds := h
  getter := rfl
  setters := by
    intro a ha
    unfold FieldSource.of at ha
    by_cases hset : (field.editable || field.required) = true
    · simp only [if_pos hset, List.mem_map] at ha
      obtain ⟨t, ht, rfl⟩ := ha
      exact ⟨t, ht, rfl⟩
    · simp only [if_neg hset] at ha
      cases ha

/-- Constructors that are left out leave the others as they are. -/
theorem distinctConstructors_sublist (seen : List (List String)) (cs : List Constructor) :
    (distinctConstructors seen cs).Sublist cs := by
  induction cs generalizing seen with
  | nil => exact .slnil
  | cons c cs ih =>
    unfold distinctConstructors
    split
    next => exact (ih _).cons c
    next => exact (ih _).cons_cons c

namespace ModelSource

variable {r : Resolver} {entity : Entity}

/-- What a model is made of: all fields with their types, and the combinations of the required
ones. -/
theorem of_ok {package : String} {m : ModelSource} (h : ModelSource.of package entity r = .ok m) :
    ∃ fields combinations, resolveFields r entity = .ok fields
      ∧ (requiredFields fields).combinations entity.name = .ok combinations
      ∧ m = ⟨package, entity.name, fields.map fun f => FieldSource.of package f.1 f.2,
        distinctConstructors [wrapping] (combinations.map (Constructor.of package))⟩ := by
  obtain ⟨fields, hfields, h⟩ := Outcome.bind_eq_ok.mp h
  obtain ⟨combinations, hcombinations, h⟩ := Outcome.bind_eq_ok.mp h
  cases h
  exact ⟨fields, combinations, hfields, hcombinations, rfl⟩

theorem candidates_of_resolveFields {fields : List (Field × List TypeExpr)}
    (h : resolveFields r entity = .ok fields) {field : Field} {types : List TypeExpr}
    (hmem : (field, types) ∈ fields) : r.candidates entity.name field = .ok types := by
  obtain ⟨field', -, hfield⟩ := Outcome.exists_of_mem_mapM h hmem
  obtain ⟨types', htypes, heq⟩ := Outcome.bind_eq_ok.mp hfield
  cases heq
  exact htypes

/-- One more field is required or not. -/
theorem requiredFields_append_singleton (fields : List (Field × List TypeExpr)) (field : Field)
    (types : List TypeExpr) :
    requiredFields (fields ++ [(field, types)])
      = if field.required then (requiredFields fields).insert field.name types
        else requiredFields fields := by
  unfold requiredFields
  rw [List.foldl_append]
  rfl

/-- Of several required fields with a name the last one counts. -/
theorem get?_requiredFields (fields : List (Field × List TypeExpr)) (name : String) :
    (requiredFields fields).fields.get? name
      = (fields.filter fun f => f.1.required && f.1.name = name).getLast?.map
          fun f => f.2.eraseDups := by
  induction fields using List.reverseRecOn with
  | nil => rfl
  | append_singleton fields last ih =>
    obtain ⟨field, types⟩ := last
    rw [requiredFields_append_singleton, List.filter_append]
    by_cases hlast : (field.required && field.name = name) = true
    · obtain ⟨hrequired, hname⟩ := Bool.and_eq_true_iff.mp hlast
      have hfilter : [(field, types)].filter (fun f => f.1.required && f.1.name = name)
          = [(field, types)] := List.filter_cons_of_pos hlast
      rw [if_pos hrequired, RequiredFields.get?_insert, if_pos (of_decide_eq_true hname).symm,
        hfilter, List.getLast?_concat]
      rfl
    · -- the last field sets something else, or nothing
      have hfilter : [(field, types)].filter (fun f => f.1.required && f.1.name = name) = [] :=
        List.filter_cons_of_neg hlast
      rw [hfilter, List.append_nil, ← ih]
      by_cases hrequired : field.required = true
      · rw [if_pos hrequired, RequiredFields.get?_insert, if_neg]
        intro hname
        exact hlast (by rw [hrequired, hname, decide_eq_true rfl, Bool.and_self])
      · rw [if_neg hrequired]

/-- The types of a required field are those of one of the fields, a required one of its name. -/
theorem mem_of_requiredFields {fields : List (Field × List TypeExpr)} {name : String}
    {types : List TypeExpr} (h : (requiredFields fields).fields.get? name = some types) :
    ∃ field, ∃ types', (field, types') ∈ fields ∧ types = types'.eraseDups
      ∧ field.required = true ∧ field.name = name := by
  rw [get?_requiredFields, Option.map_eq_some_iff] at h
  obtain ⟨⟨field, types'⟩, hlast, rfl⟩ := h
  obtain ⟨hmem, hfield⟩ := List.mem_filter.mp (List.mem_of_getLast? hlast)
  obtain ⟨hrequired, hname⟩ := Bool.and_eq_true_iff.mp hfield
  exact ⟨field, types', hmem, rfl, hrequired, of_decide_eq_true hname⟩

/-- **A model names only what its resolver knows.** -/
theorem uses_of {package : String} {m : ModelSource} (h : ModelSource.of package entity r = .ok m) :
    m.entity = entity.name ∧ m.Uses package r.Backs := by
  obtain ⟨fields, cs, hfields, hcs, rfl⟩ := of_ok h
  have hbacks : ∀ field types, (field, types) ∈ fields → ∀ t ∈ types, r.Backs t :=
    fun field types hmem =>
      Resolver.backs_of_candidates (candidates_of_resolveFields hfields hmem)
  refine ⟨rfl, rfl, ?_, ?_⟩
  · intro f hf
    obtain ⟨⟨field, types⟩, hmem, rfl⟩ := List.mem_map.mp hf
    exact ⟨types, FieldSource.uses_of field (hbacks field types hmem)⟩
  · -- a parameter is a choice of a combination, and so a type of a required field
    intro c hc q hq
    have hc' := (distinctConstructors_sublist _ _).subset hc
    obtain ⟨combination, hcombination, rfl⟩ := List.mem_map.mp hc'
    obtain ⟨⟨name, t⟩, hchoice, rfl⟩ := List.mem_map.mp hq
    obtain ⟨types, hget, ht⟩ := RequiredFields.accepts_of_combinations hcs hcombination hchoice
    obtain ⟨field, types', hmem, rfl, -⟩ := mem_of_requiredFields hget
    exact ⟨name, t, hbacks field types' hmem t (List.mem_eraseDups.mp ht), rfl⟩

end ModelSource

end TypedEntities
