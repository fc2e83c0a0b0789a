import Mathlib
import TypedEntities.Proofs.Resolution
import TypedEntities.Proofs.Source.Constructors

/-!
# When there is no model

An entity type has no model if a reference cannot be resolved or if there are too many ways to give
its required fields, and for no other reason: `ModelSource.failing_of`. A reference that cannot be
resolved is a fault of its own (`Resolver.Fault`); of several the first counts, in the order of the
names of the fields. That a required field accepts nothing at all never happens, however the types
are below each other, since each reference that is resolved accepts some type.
-/

namespace TypedEntities

open TypedEntities.Metadata
open TypedEntities.Java (TypeExpr)

/-! ## Faults of fields -/

/-- What is wrong with a field of an entity type: a reference, other than to the phase of its owner,
that names no target, or whose first target is a list without a logical name or with one that is not
known. A list node refers to lists as to other entities. -/
inductive Resolver.Fault (r : Resolver) (owner : String) (field : Field) : Failure → Prop
  | noTargets (hreference : field.isReference = true) (hphase : r.ownsPhase owner field = false)
      (htargets : field.targets = []) :
      Fault r owner field (.metadata owner field.name "reference field declares no targets")
  | unnamedList {first : Target} {rest : List Target} (hreference : field.isReference = true)
      (hphase : r.ownsPhase owner field = false) (htargets : field.targets = first :: rest)
      (hlist : first.entityType = listNodeType) (howner : owner ≠ listNodeType)
      (hname : first.logicalName = none) :
      Fault r owner field (.metadata owner field.name "list reference has no logical name")
  | unknownList {first : Target} {rest : List Target} {logicalName : String}
      (hreference : field.isReference = true) (hphase : r.ownsPhase owner field = false)
      (htargets : field.targets = first :: rest) (hlist : first.entityType = listNodeType)
      (howner : owner ≠ listNodeType) (hname : first.logicalName = some logicalName)
      (hunknown : r.lists.get? logicalName = none) :
      Fault r owner field (.unknownList owner field.name logicalName)

namespace Resolver

variable {r : Resolver} {owner : String} {field : Field} {failure : Failure}

/-- A fault is one of a reference, and its failure is what the reference is resolved to. -/
theorem Fault.isReference_resolves (h : r.Fault owner field failure) :
    field.isReference = true ∧ r.Resolves owner field (.error failure) := by
  cases h with
  | noTargets hreference hphase htargets => exact ⟨hreference, .noTargets hphase htargets⟩
  | unnamedList hreference hphase htargets hlist howner hname =>
    exact ⟨hreference, .unnamedList hphase htargets hlist howner hname⟩
  | unknownList hreference hphase htargets hlist howner hname hunknown =>
    exact ⟨hreference, .unknownList hphase htargets hlist howner hname hunknown⟩

theorem Fault.candidates_eq (h : r.Fault owner field failure) :
    r.candidates owner field = .error failure := by
  obtain ⟨hreference, hresolves⟩ := h.isReference_resolves
  rw [candidates_of_isReference hreference, hresolves.eq]
  rfl

theorem fault_of_candidates (h : r.candidates owner field = .error failure) :
    r.Fault owner field failure := by
  rcases r.candidates_cases owner field with ⟨-, -, hscalar⟩ | ⟨hresolved, hmap⟩
  · cases hscalar.symm.trans h
  · have hreference : r.ownsPhase owner field = false → field.isReference = true := fun hphase =>
      hresolved.resolve_right (by simp [hphase])
    cases resolve_eq_iff.mp (Outcome.map_eq_error.mp (hmap.symm.trans h)) with
    | noTargets hphase htargets => exact .noTargets (hreference hphase) hphase htargets
    | unnamedList hphase htargets hlist howner hname =>
      exact .unnamedList (hreference hphase) hphase htargets hlist howner hname
    | unknownList hphase htargets hlist howner hname hunknown =>
      exact .unknownList (hreference hphase) hphase htargets hlist howner hname hunknown

/-- A field accepts types unless there is a fault, and the fault is the failure. -/
theorem candidates_eq_error_iff :
    r.candidates owner field = .error failure ↔ r.Fault owner field failure :=
  ⟨fault_of_candidates, Fault.candidates_eq⟩

/-- Whether a field of an entity type has a fault. -/
def Faulty (r : Resolver) (owner : String) (field : Field) : Prop :=
  ∃ failure, r.Fault owner field failure

theorem exists_candidates_iff :
    (∃ types, r.candidates owner field = .ok types) ↔ ¬r.Faulty owner field := by
  unfold Faulty
  simp only [← candidates_eq_error_iff]
  cases r.candidates owner field <;> simp

/-- A field that has no fault accepts some type. -/
theorem candidates_ne_nil {types : List TypeExpr} (h : r.candidates owner field = .ok types) :
    types ≠ [] := by
  rcases cases_of_candidates h with ⟨-, rfl⟩ | ⟨resolution, hresolve, rfl⟩
  · exact List.cons_ne_nil _ _
  · exact (offers_of_resolve hresolve).ne_nil

/-- The failure of the first of some fields that has a fault. -/
def FirstFault (r : Resolver) (owner : String) (fields : List Field) (failure : Failure) : Prop :=
  ∃ before field after, fields = before ++ field :: after
    ∧ (∀ earlier ∈ before, ¬r.Faulty owner earlier) ∧ r.Fault owner field failure

end Resolver

/-! ## The order of fields -/

/-- The fields in the order of their names; those with the same name stay in their order. -/
structure NameOrder (fields sorted : List Field) : Prop where
  perm : sorted.Perm fields
  ascending : sorted.Pairwise fun a b => a.name ≤ b.name
  stable : ∀ name, sorted.filter (fun f => f.name = name) = fields.filter fun f => f.name = name

theorem nameOrder_sortFields (fields : List Field) : NameOrder fields (sortFields fields) where
  perm := List.mergeSort_perm ..
  ascending := pairwise_mergeSort_key Field.name fields
  stable _ := filter_mergeSort_key Field.name (fun _ h => of_decide_eq_true h) fields

/-! ## The number of constructors -/

/-- The names of the required fields. -/
def Metadata.Entity.requiredNames (e : Entity) : Finset String :=
  ((e.fields.filter fun f => f.required).map fun f => f.name).toFinset

/-- How many types the last required field of a name accepts. -/
def Resolver.typeCount (r : Resolver) (entity : Entity) (name : String) : Nat :=
  match (entity.fields.filter fun f => f.required && f.name = name).getLast? with
  | none => 0
  | some field =>
    match r.candidates entity.name field with
    | .ok types => types.toFinset.card
    | .error _ => 0

/-- How many ways there are to give the required fields of some names. -/
def Resolver.waysToGive (r : Resolver) (entity : Entity) (names : Finset String) : Nat :=
  ∏ name ∈ names, r.typeCount entity name

/-- A required field is the first, in the order of names, with which the ways to give the required
fields come to be too many. -/
structure Resolver.TooMany (r : Resolver) (entity : Entity) (name : String) : Prop where
  mem : name ∈ entity.requiredNames
  few : r.waysToGive entity (entity.requiredNames.filter (· < name)) ≤ maxOverloads
  many : maxOverloads < r.waysToGive entity (entity.requiredNames.filter (· ≤ name))

section Counting

variable {r : Resolver} {entity : Entity} {required : List (String × List TypeExpr)}

theorem length_eraseDups (types : List TypeExpr) :
    types.eraseDups.length = types.toFinset.card := by
  rw [← List.toFinset_card_of_nodup (nodup_eraseDups types)]
  congr 1
  ext t
  rw [List.mem_toFinset, List.mem_toFinset, List.mem_eraseDups]

theorem Requires.length_eq (h : Requires r entity required) {name : String}
    {types : List TypeExpr} (hmem : (name, types) ∈ required) :
    types.length = r.typeCount entity name := by
  obtain ⟨field, accepted, hlast, haccepted, rfl⟩ := (h.mem_iff name types).mp hmem
  simp only [Resolver.typeCount, hlast, haccepted]
  exact length_eraseDups accepted

theorem Requires.nodup (h : Requires r entity required) : (required.map Prod.fst).Nodup :=
  h.ascending.imp fun hlt => ne_of_lt hlt

/-- The ways to choose among some of the required fields are the ways to give them. -/
theorem Requires.ways_eq (h : Requires r entity required) {part : List (String × List TypeExpr)}
    (hpart : part.Sublist required) :
    ways part = r.waysToGive entity (part.map Prod.fst).toFinset := by
  unfold Resolver.waysToGive ways
  rw [List.prod_toFinset _ (h.nodup.sublist (hpart.map _)), List.map_map]
  congr 1
  exact List.map_congr_left fun field hfield => h.length_eq (hpart.subset hfield)

theorem Requires.ne_nil (h : Requires r entity required) : ∀ field ∈ required, field.2 ≠ [] := by
  intro field hfield
  obtain ⟨last, accepted, -, haccepted, htypes⟩ := (h.mem_iff field.1 field.2).mp hfield
  obtain ⟨t, ht⟩ := List.exists_mem_of_ne_nil _ (Resolver.candidates_ne_nil haccepted)
  rw [htypes]
  exact List.ne_nil_of_mem (List.mem_eraseDups.mpr ht)

/-- Where no field has a fault every required name is there. -/
theorem Requires.names_eq (h : Requires r entity required)
    (hfields : ∀ field ∈ entity.fields, ¬r.Faulty entity.name field) :
    (required.map Prod.fst).toFinset = entity.requiredNames := by
  ext name
  unfold Entity.requiredNames
  simp only [List.mem_toFinset, List.mem_map, List.mem_filter, Prod.exists, exists_and_right,
    exists_eq_right]
  constructor
  · intro hmem
    obtain ⟨types, hmem⟩ := hmem
    obtain ⟨field, accepted, hlast, -, -⟩ := (h.mem_iff name types).mp hmem
    obtain ⟨hfield, hname⟩ := List.mem_filter.mp (List.mem_of_getLast? hlast)
    obtain ⟨hrequired, hname⟩ := Bool.and_eq_true_iff.mp hname
    exact ⟨field, ⟨hfield, hrequired⟩, of_decide_eq_true hname⟩
  · intro hfield
    obtain ⟨field, ⟨hfield, hrequired⟩, hname⟩ := hfield
    have hmem : field ∈ entity.fields.filter fun f => f.required && f.name = name :=
      List.mem_filter.mpr ⟨hfield, by simp [hrequired, hname]⟩
    -- fields with one name can repeat, and then the last is the one that counts
    have hlast := List.getLast?_eq_some_getLast (List.ne_nil_of_mem hmem)
    obtain ⟨accepted, haccepted⟩ := Resolver.exists_candidates_iff.mpr
      (hfields _ (List.mem_of_mem_filter (List.getLast_mem (List.ne_nil_of_mem hmem))))
    exact ⟨_, (h.mem_iff name _).mpr ⟨_, accepted, hlast, haccepted, rfl⟩⟩

/-- The names up to one of the required fields. -/
theorem Requires.filter_le_eq (h : Requires r entity required)
    (hfields : ∀ field ∈ entity.fields, ¬r.Faulty entity.name field)
    {before after : List (String × List TypeExpr)} {field : String × List TypeExpr}
    (hsplit : required = before ++ field :: after) :
    (before.map Prod.fst).toFinset = entity.requiredNames.filter (· < field.1)
      ∧ ((before ++ [field]).map Prod.fst).toFinset
        = entity.requiredNames.filter (· ≤ field.1) := by
  -- names ascend, so the fields before this one are those with a lesser name
  have hascending := h.ascending
  rw [hsplit, List.map_append, List.map_cons, List.pairwise_append,
    List.pairwise_cons] at hascending
  obtain ⟨-, ⟨hafter, -⟩, hbefore⟩ := hascending
  have hlt : ∀ name ∈ before.map Prod.fst, name < field.1 := fun name hname =>
    hbefore name hname field.1 (List.mem_cons_self ..)
  rw [← h.names_eq hfields, hsplit]
  constructor
  all_goals
    ext name
    simp only [List.mem_toFinset, Finset.mem_filter, List.map_append, List.map_cons, List.map_nil,
      List.mem_append, List.mem_cons, List.not_mem_nil, or_false]
  · refine ⟨fun hname => ⟨.inl hname, hlt name hname⟩, fun hname => ?_⟩
    obtain ⟨hname | rfl | hname, hle⟩ := hname
    · exact hname
    · exact absurd hle (lt_irrefl _)
    · exact absurd (hafter name hname) (lt_asymm hle)
  · constructor
    · intro hname
      rcases hname with hname | rfl
      · exact ⟨.inl hname, le_of_lt (hlt name hname)⟩
      · exact ⟨.inr (.inl rfl), le_refl _⟩
    · intro hname
      obtain ⟨hname | rfl | hname, hle⟩ := hname
      · exact .inl hname
      · exact .inr rfl
      · exact absurd (hafter name hname) (not_lt_of_ge hle)

/-- More required fields leave more ways to give them. -/
theorem waysToGive_le (hfields : ∀ field ∈ entity.fields, ¬r.Faulty entity.name field)
    (h : Requires r entity required) {names more : Finset String} (hsubset : names ⊆ more)
    (hmore : more ⊆ entity.requiredNames) :
    r.waysToGive entity names ≤ r.waysToGive entity more := by
  refine Nat.le_of_dvd (Finset.prod_pos fun name hname => ?_)
    (Finset.prod_dvd_prod_of_subset _ _ _ hsubset)
  have hmem := hmore hname
  rw [← h.names_eq hfields, List.mem_toFinset, List.mem_map] at hmem
  obtain ⟨⟨name, types⟩, hmem, rfl⟩ := hmem
  rw [← h.length_eq hmem]
  exact List.length_pos_iff.mpr (h.ne_nil _ hmem)

/-- Only with one field can the ways come to be too many. -/
theorem Resolver.TooMany.eq (hfields : ∀ field ∈ entity.fields, ¬r.Faulty entity.name field)
    (h : Requires r entity required) {name name' : String} (hname : r.TooMany entity name)
    (hname' : r.TooMany entity name') : name = name' := by
  -- the ways up to the lesser name are among those before the greater, which are few
  have hle : ∀ {a b : String}, r.TooMany entity a → r.TooMany entity b → ¬a < b := by
    intro a b ha hb hlt
    have hways : r.waysToGive entity (entity.requiredNames.filter (· ≤ a))
        ≤ r.waysToGive entity (entity.requiredNames.filter (· < b)) :=
      waysToGive_le hfields h
        (Finset.monotone_filter_right _ fun _ _ hle => lt_of_le_of_lt hle hlt)
        (Finset.filter_subset _ _)
    exact absurd (ha.many.trans_le (hways.trans hb.few)) (lt_irrefl _)
  exact le_antisymm (not_lt.mp (hle hname' hname)) (not_lt.mp (hle hname hname'))

/-- Combining the required fields fails if and only if there are too many ways to give them. -/
theorem Requires.combined_eq_error_iff (h : Requires r entity required)
    (hfields : ∀ field ∈ entity.fields, ¬r.Faulty entity.name field)
    {result : Except Failure (List Combination)} (hresult : Combined entity.name required result)
    {failure : Failure} :
    result = .error failure ↔ ∃ name, r.TooMany entity name
      ∧ failure = .metadata entity.name name "too many constructor overloads" := by
  cases hresult with
  | noType hsplit =>
    -- every required field has a type at least
    have hmem : (_, []) ∈ required := hsplit ▸ List.mem_append_right _ (List.mem_cons_self ..)
    exact absurd rfl (h.ne_nil _ hmem)
  | @tooMany before after field _ hsplit hbefore hmany =>
    obtain ⟨hlt, hle⟩ := h.filter_le_eq hfields hsplit
    have hpart : (before ++ [field]).Sublist required := by
      rw [hsplit, List.append_cons before field after]
      exact List.sublist_append_left ..
    have hmember : field.1 ∈ entity.requiredNames := by
      rw [← h.names_eq hfields, List.mem_toFinset, hsplit]
      exact List.mem_map_of_mem (List.mem_append_right _ (List.mem_cons_self ..))
    have hfirst : r.TooMany entity field.1 := by
      refine ⟨hmember, ?_, ?_⟩
      · rw [← hlt, ← h.ways_eq ((List.sublist_append_left ..).trans hpart)]
        exact hbefore before List.prefix_rfl
      · rwa [← hle, ← h.ways_eq hpart]
    constructor
    · intro heq
      exact ⟨field.1, hfirst, (Except.error.inj heq).symm⟩
    · intro hname
      obtain ⟨name, hname, rfl⟩ := hname
      rw [hfirst.eq hfields h hname]
  | all _ hfew =>
    -- no part of the fields has more ways than all of them
    refine iff_of_false nofun fun hname => ?_
    obtain ⟨name, hname, -⟩ := hname
    rw [h.ways_eq (List.Sublist.refl _), h.names_eq hfields] at hfew
    exact absurd (hname.many.trans_le ((waysToGive_le hfields h (Finset.filter_subset _ _)
      (Finset.Subset.refl _)).trans hfew)) (lt_irrefl _)

/-- The ways come to be too many with some field if and only if there are too many for all. -/
theorem Requires.exists_tooMany_iff (h : Requires r entity required)
    (hfields : ∀ field ∈ entity.fields, ¬r.Faulty entity.name field)
    {result : Except Failure (List Combination)} (hresult : Combined entity.name required result) :
    (∃ name, r.TooMany entity name)
      ↔ maxOverloads < r.waysToGive entity entity.requiredNames := by
  have hall : ways required = r.waysToGive entity entity.requiredNames := by
    rw [h.ways_eq (List.Sublist.refl _), h.names_eq hfields]
  constructor
  · intro hname
    obtain ⟨name, hname⟩ := hname
    exact hname.many.trans_le
      (waysToGive_le hfields h (Finset.filter_subset _ _) (Finset.Subset.refl _))
  · intro hmany
    -- too many ways for all fields leave only the failure
    have herror : ∃ failure, result = .error failure := by
      cases hresult with
      | noType => exact ⟨_, rfl⟩
      | tooMany => exact ⟨_, rfl⟩
      | all _ hfew => exact absurd (hmany.trans_le (hall ▸ hfew)) (lt_irrefl _)
    obtain ⟨failure, herror⟩ := herror
    obtain ⟨name, hname, -⟩ := (h.combined_eq_error_iff hfields hresult).mp herror
    exact ⟨name, hname⟩

end Counting

/-! ## Models -/

namespace ModelSource

variable {r : Resolver} {entity : Entity}

theorem resolveFields_eq_error_iff {failure : Failure} :
    resolveFields r entity = .error failure
      ↔ r.FirstFault entity.name (sortFields entity.fields) failure := by
  have hstep (field : Field) :
      (do let types ← r.candidates entity.name field; return (field, types))
        = (r.candidates entity.name field).map (field, ·) := by
    cases r.candidates entity.name field <;> rfl
  have hok (field : Field) :
      (∃ resolved, (r.candidates entity.name field).map (field, ·) = .ok resolved)
        ↔ ¬r.Faulty entity.name field := by
    rw [← Resolver.exists_candidates_iff]
    simp only [Outcome.map_eq_ok]
    rw [exists_comm]
    simp only [exists_and_left, exists_eq', and_true]
  unfold resolveFields Resolver.FirstFault
  simp only [hstep, Outcome.mapM_eq_error_iff, hok, Outcome.map_eq_error,
    Resolver.candidates_eq_error_iff]

/-- Where the fields are resolved none has a fault. -/
theorem not_faulty_of_resolveFields {fields : List (Field × List TypeExpr)}
    (h : resolveFields r entity = .ok fields) :
    ∀ field ∈ entity.fields, ¬r.Faulty entity.name field := by
  intro field hfield
  have hsorted := (nameOrder_sortFields entity.fields).perm.mem_iff.mpr hfield
  obtain ⟨resolved, -, hresolved⟩ := exists_right_of_mem (Outcome.mapM_eq_ok.mp h) hsorted
  obtain ⟨types, htypes, -⟩ := Outcome.bind_eq_ok.mp hresolved
  exact Resolver.exists_candidates_iff.mp ⟨types, htypes⟩

/-- A first fault is the fault of some field. -/
theorem exists_faulty_of_firstFault {failure : Failure}
    (h : r.FirstFault entity.name (sortFields entity.fields) failure) :
    ∃ field ∈ entity.fields, r.Faulty entity.name field := by
  obtain ⟨before, field, after, hsplit, -, hfault⟩ := h
  have hmem : field ∈ sortFields entity.fields :=
    hsplit ▸ List.mem_append_right _ (List.mem_cons_self ..)
  exact ⟨field, (nameOrder_sortFields entity.fields).perm.mem_iff.mp hmem, failure, hfault⟩

/-- What comes of combining the required ones of the resolved fields. -/
theorem combined_requiredFields {fields : List (Field × List TypeExpr)}
    (h : resolveFields r entity = .ok fields) :
    Combined entity.name (requiredFields fields).fields.entries
      ((requiredFields fields).combinations entity.name) := by
  refine RequiredFields.combined_combinations fun field hfield => ?_
  obtain ⟨last, accepted, -, -, htypes⟩ :=
    ((requires_requiredFields h).mem_iff field.1 field.2).mp hfield
  exact htypes ▸ nodup_eraseDups accepted

/-- How the model of an entity type fails: if and only if some field has a fault, or none has and
there are too many ways to give the required fields. The failure is the fault of the first field
that has one, or names the first field with which the ways are too many. -/
structure Failing (r : Resolver) (entity : Entity)
    (result : Except Failure ModelSource) : Prop where
  fails_iff : (∃ failure, result = .error failure)
    ↔ (∃ field ∈ entity.fields, r.Faulty entity.name field)
      ∨ ((∀ field ∈ entity.fields, ¬r.Faulty entity.name field)
        ∧ maxOverloads < r.waysToGive entity entity.requiredNames)
  failure_iff : ∃ sorted, NameOrder entity.fields sorted ∧ ∀ failure,
    result = .error failure
      ↔ r.FirstFault entity.name sorted failure
        ∨ ((∀ field ∈ entity.fields, ¬r.Faulty entity.name field)
          ∧ ∃ name, r.TooMany entity name
            ∧ failure = .metadata entity.name name "too many constructor overloads")
  /-- A required field never accepts nothing. -/
  typed : ∀ owner name,
    result ≠ .error (.metadata owner name "required field has no candidate types")

/-- Where the fields are resolved the model fails as combining the required ones does. -/
theorem of_eq_error_iff_of_resolveFields {package : String} {fields : List (Field × List TypeExpr)}
    (h : resolveFields r entity = .ok fields) {failure : Failure} :
    ModelSource.of package entity r = .error failure
      ↔ (requiredFields fields).combinations entity.name = .error failure := by
  unfold ModelSource.of
  rw [h]
  show ((requiredFields fields).combinations entity.name >>= _) = _ ↔ _
  cases (requiredFields fields).combinations entity.name <;>
    simp [bind, Except.bind, pure, Except.pure]

theorem of_eq_error_iff {package : String} {failure : Failure} :
    ModelSource.of package entity r = .error failure
      ↔ r.FirstFault entity.name (sortFields entity.fields) failure
        ∨ ((∀ field ∈ entity.fields, ¬r.Faulty entity.name field)
          ∧ ∃ name, r.TooMany entity name
            ∧ failure = .metadata entity.name name "too many constructor overloads") := by
  cases hfields : resolveFields r entity with
  | error f =>
    have hfirst := resolveFields_eq_error_iff.mp hfields
    obtain ⟨field, hfield, hfaulty⟩ := exists_faulty_of_firstFault hfirst
    have hof : ModelSource.of package entity r = .error f := by
      unfold ModelSource.of
      rw [hfields]
      rfl
    -- a field with a fault keeps the constructors from being looked at
    rw [or_iff_left fun hnone => hnone.1 field hfield hfaulty, ← resolveFields_eq_error_iff,
      hfields, hof]
    simp
  | ok fields =>
    have hnone := not_faulty_of_resolveFields hfields
    have hrequires := requires_requiredFields hfields
    rw [of_eq_error_iff_of_resolveFields hfields,
      hrequires.combined_eq_error_iff hnone (combined_requiredFields hfields), or_iff_right,
      and_iff_right hnone]
    intro hfirst
    obtain ⟨field, hfield, hfaulty⟩ := exists_faulty_of_firstFault hfirst
    exact hnone field hfield hfaulty

/-- Where no field has a fault the required fields can be listed and combined. -/
theorem exists_requires (h : ∀ field ∈ entity.fields, ¬r.Faulty entity.name field) :
    ∃ required result, Requires r entity required ∧ Combined entity.name required result := by
  cases hfields : resolveFields r entity with
  | error f =>
    obtain ⟨field, hfield, hfaulty⟩ :=
      exists_faulty_of_firstFault (resolveFields_eq_error_iff.mp hfields)
    exact absurd hfaulty (h field hfield)
  | ok fields => exact ⟨_, _, requires_requiredFields hfields, combined_requiredFields hfields⟩

/-- **When there is no model**: what can go wrong with an entity type, and which failure it is. -/
theorem failing_of (package : String) (entity : Entity) (r : Resolver) :
    Failing r entity (ModelSource.of package entity r) where
  fails_iff := by
    simp only [of_eq_error_iff]
    constructor
    · intro hfails
      obtain ⟨failure, hfirst | ⟨hnone, name, hname, -⟩⟩ := hfails
      · exact .inl (exists_faulty_of_firstFault hfirst)
      · obtain ⟨required, result, hrequires, hcombined⟩ := exists_requires hnone
        exact .inr ⟨hnone, (hrequires.exists_tooMany_iff hnone hcombined).mp ⟨name, hname⟩⟩
    · intro hwrong
      rcases hwrong with ⟨field, hfield, hfaulty⟩ | ⟨hnone, hmany⟩
      · cases hfields : resolveFields r entity with
        | error f => exact ⟨f, .inl (resolveFields_eq_error_iff.mp hfields)⟩
        | ok fields => exact absurd hfaulty (not_faulty_of_resolveFields hfields field hfield)
      · obtain ⟨required, result, hrequires, hcombined⟩ := exists_requires hnone
        obtain ⟨name, hname⟩ := (hrequires.exists_tooMany_iff hnone hcombined).mpr hmany
        exact ⟨_, .inr ⟨hnone, name, hname, rfl⟩⟩
  failure_iff :=
    ⟨sortFields entity.fields, nameOrder_sortFields entity.fields, fun _ => of_eq_error_iff⟩
  typed owner name := by
    intro hfails
    rcases of_eq_error_iff.mp hfails with ⟨before, field, after, -, -, hfault⟩ | ⟨-, name', -, heq⟩
    · -- no fault of a field has this text
      generalize hfailure : Failure.metadata owner name _ = failure at hfault
      cases hfault <;> simp at hfailure
    · simp at heq

end ModelSource

end TypedEntities
