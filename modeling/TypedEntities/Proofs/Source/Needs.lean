import Mathlib
import TypedEntities.Proofs.Outcome
import TypedEntities.Proofs.Overload
import TypedEntities.Proofs.Source.Model
import TypedEntities.Source.Emitted

/-!
# The lists that fields need

A reference to a list can only be resolved if the list is known by its logical name. `Resolver.needs`
says which lists the fields of an entity type need. Where some lists are not known any more, the
sources of the entity type are refused at the first need that is not met, and if all are met there
are sources as before, although the lists may have got other identifiers:
`Package.exists_entitySources` and `Package.entitySources_eq_error`.
-/

namespace TypedEntities

open TypedEntities.Metadata
open TypedEntities.Java (TypeExpr)
open TypedEntities.Outcome (Agree)

/-- A list that a field of an entity type needs, by its logical name. -/
structure ListNeed where
  entity : String
  field : String
  logicalName : String
deriving DecidableEq, Repr

/-- The failure for a need that is not met. -/
def ListNeed.failure (n : ListNeed) : Failure := .unknownList n.entity n.field n.logicalName

namespace Resolver

/-- The logical name of the list that a field needs: that of its first target, if this is a list.
Phases are no lists, and a list node holds the lists it refers to as entities. -/
def neededList? (r : Resolver) (owner : String) (field : Field) : Option String :=
  if field.isReference && !r.ownsPhase owner field && owner ≠ listNodeType then
    field.listTarget?.bind (·.logicalName)
  else none

/-- The lists that the fields of an entity type need, by the names of the fields. -/
def needs (r : Resolver) (entity : Entity) : List ListNeed :=
  (sortFields entity.fields).filterMap fun field =>
    (r.neededList? entity.name field).map fun logicalName => ⟨entity.name, field.name, logicalName⟩

/-- The same resolver with other lists. -/
def withLists (r : Resolver) (lists : Table String String) : Resolver := { r with lists := lists }

variable {r : Resolver} {lists : Table String String} {owner : String} {field : Field}

/-! ## One field -/

/-- What it means for a field to need a list. -/
theorem neededList?_eq_some_iff {logicalName : String} :
    r.neededList? owner field = some logicalName
      ↔ field.isReference = true ∧ r.ownsPhase owner field = false ∧ owner ≠ listNodeType
        ∧ ∃ first rest, field.targets = first :: rest ∧ first.entityType = listNodeType
          ∧ first.logicalName = some logicalName := by
  unfold neededList? Field.listTarget?
  rw [Option.ite_none_right_eq_some, Option.bind_eq_some_iff]
  simp only [Bool.and_eq_true, Bool.not_eq_true', decide_eq_true_eq, Option.filter_eq_some_iff,
    List.head?_eq_some_iff]
  constructor
  · rintro ⟨⟨⟨hreference, hphase⟩, howner⟩, first, ⟨⟨rest, hrest⟩, hnode⟩, hname⟩
    exact ⟨hreference, hphase, howner, first, rest, hrest, hnode, hname⟩
  · rintro ⟨hreference, hphase, howner, first, rest, hrest, hnode, hname⟩
    exact ⟨⟨⟨hreference, hphase⟩, howner⟩, first, ⟨⟨rest, hrest⟩, hnode⟩, hname⟩

/-- A field that needs a list accepts the values of this list, if it is known. -/
theorem candidates_of_neededList? {logicalName : String}
    (h : r.neededList? owner field = some logicalName) :
    r.candidates owner field = match r.lists.get? logicalName with
      | none => .error (.unknownList owner field.name logicalName)
      | some identifier => .ok [.list identifier field.isMultiple] := by
  obtain ⟨hreference, hphase, howner, first, rest, htargets, hnode, hname⟩ :=
    neededList?_eq_some_iff.mp h
  rw [candidates_of_isReference hreference]
  cases hget : r.lists.get? logicalName with
  | none =>
    rw [(Resolves.unknownList hphase htargets hnode howner hname hget).eq]
    rfl
  | some identifier =>
    rw [(Resolves.list hphase htargets hnode howner hname hget).eq]
    rfl

/-- Lists have no bearing on a reference that needs none. -/
theorem resolve_withLists (hreference : field.isReference = true ∨ r.ownsPhase owner field = true)
    (h : r.neededList? owner field = none) :
    (r.withLists lists).resolve owner field = r.resolve owner field := by
  -- a list with a logical name is needed
  have hneeds : ∀ {first : Target} {rest : List Target} {name : String},
      r.ownsPhase owner field = false → field.targets = first :: rest →
      first.entityType = listNodeType → owner ≠ listNodeType → first.logicalName ≠ some name := by
    intro first rest name hphase htargets hnode howner hname
    have hreference := hreference.resolve_right (by simp [hphase])
    have hneed := neededList?_eq_some_iff.mpr
      ⟨hreference, hphase, howner, first, rest, htargets, hnode, hname⟩
    cases h.symm.trans hneed
  generalize hresult : r.resolve owner field = result
  refine resolve_eq_iff.mpr ?_
  cases resolve_eq_iff.mp hresult with
  | phase hphase => exact .phase hphase
  | noTargets hphase htargets => exact .noTargets hphase htargets
  | unnamedList hphase htargets hlist howner hname =>
    exact .unnamedList hphase htargets hlist howner hname
  | unknownList hphase htargets hlist howner hname =>
    exact absurd hname (hneeds hphase htargets hlist howner)
  | list hphase htargets hlist howner hname =>
    exact absurd hname (hneeds hphase htargets hlist howner)
  | collection hphase htargets hother hmultiple =>
    exact .collection hphase htargets hother hmultiple
  | entity hphase htargets hother hsingle => exact .entity hphase htargets hother hsingle

/-- Lists have no bearing on a field that needs none. -/
theorem candidates_withLists (h : r.neededList? owner field = none) :
    (r.withLists lists).candidates owner field = r.candidates owner field := by
  have hphase : (r.withLists lists).ownsPhase owner field = r.ownsPhase owner field := rfl
  unfold candidates
  rw [hphase]
  split
  next hresolved => rw [resolve_withLists (Bool.or_eq_true_iff.mp hresolved) h]
  next => rfl

/-- A field that is resolved still is if the list that it needs is known, and it accepts as many types
as before. -/
theorem exists_candidates {types : List TypeExpr} (h : r.candidates owner field = .ok types)
    (hmet : ∀ name, r.neededList? owner field = some name → lists.get? name ≠ none) :
    ∃ types', (r.withLists lists).candidates owner field = .ok types'
      ∧ types.eraseDups.length = types'.eraseDups.length := by
  cases hneed : r.neededList? owner field with
  | none => exact ⟨types, (candidates_withLists hneed).trans h, rfl⟩
  | some name =>
    obtain ⟨identifier', hidentifier'⟩ := Option.ne_none_iff_exists'.mp (hmet name hneed)
    rw [candidates_of_neededList? hneed] at h
    split at h
    next => cases h
    next identifier _ =>
      cases h
      have hneed' : (r.withLists lists).neededList? owner field = some name := hneed
      refine ⟨[.list identifier' field.isMultiple], ?_, rfl⟩
      rw [candidates_of_neededList? hneed',
        show (r.withLists lists).lists.get? name = some identifier' from hidentifier']

/-- A field that needs a list which is not known is refused. -/
theorem candidates_withLists_eq_error {name : String} (hneed : r.neededList? owner field = some name)
    (hlost : lists.get? name = none) :
    (r.withLists lists).candidates owner field = .error (.unknownList owner field.name name) := by
  have hneed' : (r.withLists lists).neededList? owner field = some name := hneed
  rw [candidates_of_neededList? hneed', show (r.withLists lists).lists.get? name = none from hlost]

end Resolver

/-! ## One entity type -/

variable {r : Resolver} {lists : Table String String} {entity : Entity}

/-- Whether the list of a need is not known. -/
def ListNeed.isLost (lists : Table String String) (n : ListNeed) : Bool :=
  (lists.get? n.logicalName).isNone

namespace ModelSource

/-- Two resolved fields are the same field with the same number of types. -/
def SameSize (x y : Field × List TypeExpr) : Prop :=
  x.1 = y.1 ∧ x.2.eraseDups.length = y.2.eraseDups.length

/-- The required fields of fields that accept as many types accept as many types. -/
theorem related_requiredFields {fields fields' : List (Field × List TypeExpr)}
    (h : List.Forall₂ SameSize fields fields') :
    (requiredFields fields).fields.Related (fun a b => a.length = b.length)
      (requiredFields fields').fields := by
  -- field by field, both sides take the same one with as many types
  have hfold : ∀ {a b : RequiredFields},
      a.fields.Related (fun a b => a.length = b.length) b.fields →
      (fields.foldl (fun r f => if f.1.required then r.insert f.1.name f.2 else r) a).fields.Related
        (fun a b => a.length = b.length)
        (fields'.foldl (fun r f => if f.1.required then r.insert f.1.name f.2 else r) b).fields := by
    induction h with
    | nil => exact fun hab => hab
    | @cons x y _ _ hxy _ ih =>
      intro a b hab
      obtain ⟨field, types⟩ := x
      obtain ⟨field', types'⟩ := y
      obtain ⟨rfl, hlength⟩ : field = field' ∧ types.eraseDups.length = types'.eraseDups.length := hxy
      rw [List.foldl_cons, List.foldl_cons]
      refine ih ?_
      simp only
      split
      next => exact Table.Related.insert hab _ hlength
      next => exact hab
  exact hfold .nil

/-- A step of resolving that has gone well still does if the list that the field needs is known. -/
theorem exists_resolved {owner : String} {field : Field} {resolved : Field × List TypeExpr}
    (h : (do let types ← r.candidates owner field; return (field, types)) = .ok resolved)
    (hmet : ∀ name, r.neededList? owner field = some name → lists.get? name ≠ none) :
    ∃ resolved', (do let types ← (r.withLists lists).candidates owner field; return (field, types))
        = Except.ok resolved' ∧ SameSize resolved resolved' := by
  obtain ⟨types, htypes, heq⟩ := Outcome.bind_eq_ok.mp h
  cases heq
  obtain ⟨types', htypes', hlength⟩ := Resolver.exists_candidates htypes hmet
  exact ⟨(field, types'), by rw [htypes']; rfl, rfl, hlength⟩

/-- A field has the need that the needs of its entity type list for it. -/
theorem mem_filterMap_needs {fields : List Field} {field : Field} (hfield : field ∈ fields)
    {owner name : String} (hneed : r.neededList? owner field = some name) :
    (⟨owner, field.name, name⟩ : ListNeed) ∈ fields.filterMap fun field =>
      (r.neededList? owner field).map fun logicalName => ⟨owner, field.name, logicalName⟩ :=
  List.mem_filterMap.mpr ⟨field, hfield, by rw [hneed]; rfl⟩

/-- Where no need is lost the fields are resolved as before, with as many types. -/
theorem exists_resolveFields {fields : List (Field × List TypeExpr)}
    (h : resolveFields r entity = .ok fields)
    (hmet : (r.needs entity).find? (ListNeed.isLost lists) = none) :
    ∃ fields', resolveFields (r.withLists lists) entity = .ok fields'
      ∧ List.Forall₂ SameSize fields fields' := by
  refine Outcome.exists_mapM_of_mapM (fun field hfield resolved hresolved => ?_) h
  refine exists_resolved hresolved fun name hneed hlost => ?_
  exact List.find?_eq_none.mp hmet _ (mem_filterMap_needs hfield hneed)
    (Option.isNone_iff_eq_none.mpr hlost)

/-- The first need that is lost is the one that the fields are refused for. -/
theorem resolveFields_eq_error {fields : List (Field × List TypeExpr)}
    (h : resolveFields r entity = .ok fields) {need : ListNeed}
    (hlost : (r.needs entity).find? (ListNeed.isLost lists) = some need) :
    resolveFields (r.withLists lists) entity = .error need.failure := by
  -- the fields split at the one with the need; those before it need none or one that is met
  obtain ⟨hisLost, early, late, hsplit, hearly⟩ := List.find?_eq_some_iff_append.mp hlost
  obtain ⟨first, others, hfields, hfirst, hothers⟩ := List.filterMap_eq_append_iff.mp hsplit
  obtain ⟨without, field, after, rfl, hwithout, hfield, -⟩ := List.filterMap_eq_cons_iff.mp hothers
  obtain ⟨name, hneed, rfl⟩ := Option.map_eq_some_iff.mp hfield
  have hmet : ∀ f ∈ first ++ without, ∀ name, r.neededList? entity.name f = some name →
      lists.get? name ≠ none := by
    intro f hf name hneed hnone
    rcases List.mem_append.mp hf with hf | hf
    · have := hearly _ (hfirst ▸ mem_filterMap_needs hf hneed)
      rw [ListNeed.isLost, hnone] at this
      cases this
    · have := hwithout f hf
      rw [hneed] at this
      cases this
  unfold resolveFields at h ⊢
  rw [hfields, ← List.append_assoc] at h ⊢
  refine Outcome.mapM_eq_error (fun f hf => ?_) ?_
  · obtain ⟨resolved, -, hresolved⟩ :=
      exists_right_of_mem (Outcome.mapM_eq_ok.mp h) (List.mem_append_left _ hf)
    obtain ⟨resolved', hresolved', -⟩ := exists_resolved hresolved (hmet f hf)
    exact ⟨resolved', hresolved'⟩
  · show ((r.withLists lists).candidates entity.name field >>= fun types => pure (field, types)) = _
    rw [Resolver.candidates_withLists_eq_error hneed (Option.isNone_iff_eq_none.mp hisLost)]
    rfl

end ModelSource

namespace Package

variable {p : Package} {part : List Source}

/-- Where no need is lost an entity type still has its sources. -/
theorem exists_entitySources (h : p.entitySources r entity = .ok part)
    (hmet : (r.needs entity).find? (ListNeed.isLost lists) = none) :
    ∃ part', p.entitySources (r.withLists lists) entity = .ok part' := by
  obtain ⟨m, hm, -⟩ := Outcome.bind_eq_ok.mp h
  obtain ⟨fields, combinations, hfields, hcombinations, -⟩ := ModelSource.of_ok hm
  obtain ⟨fields', hfields', hsize⟩ := ModelSource.exists_resolveFields hfields hmet
  obtain ⟨combinations', hcombinations'⟩ :=
    RequiredFields.exists_combinations (ModelSource.related_requiredFields hsize) hcombinations
  have hm' : ∃ m', ModelSource.of p.name entity (r.withLists lists) = .ok m' := by
    unfold ModelSource.of
    rw [hfields']
    show ∃ m', ((ModelSource.requiredFields fields').combinations entity.name >>= _) = .ok m'
    rw [hcombinations']
    exact ⟨_, rfl⟩
  obtain ⟨m', hm'⟩ := hm'
  unfold entitySources
  rw [hm']
  exact ⟨_, rfl⟩

/-- An entity type is refused for the first of its needs that is lost. -/
theorem entitySources_eq_error (h : p.entitySources r entity = .ok part) {need : ListNeed}
    (hlost : (r.needs entity).find? (ListNeed.isLost lists) = some need) :
    p.entitySources (r.withLists lists) entity = .error need.failure := by
  obtain ⟨m, hm, -⟩ := Outcome.bind_eq_ok.mp h
  obtain ⟨fields, combinations, hfields, -, -⟩ := ModelSource.of_ok hm
  unfold entitySources ModelSource.of
  rw [ModelSource.resolveFields_eq_error hfields hlost]
  rfl

end Package

end TypedEntities
