import Mathlib
import TypedEntities.Enumeration.Phases
import TypedEntities.Proofs.Java.Distinct
import TypedEntities.Proofs.Table

/-!
# The enumerations of phases

Every type name that phases have is the key of one enumeration, and enumerations with different keys
have different names: `Phases.count_enumName`. The enumerations do not depend on the order in which
phases are listed: `Phases.groups_merge_eq_of_perm`.
-/

namespace TypedEntities.Phases

open TypedEntities.Metadata
open TypedEntities.Java (Sibling typeName)

variable {p : Phases} {key : String}

/-! ## Names -/

/-- The keys that a resolver knows are those of the records. -/
theorem contains_keys_iff : p.keys.contains key ↔ key ∈ p.records.keys := by
  rw [Table.contains_iff, keys, Table.mem_keys_ofList, List.map_map]
  simp [Function.comp_def]

/-- There is one group for each key. -/
theorem map_key_groups (p : Phases) : p.groups.map PhaseGroup.key = p.records.keys := by
  rw [groups, List.map_map]
  rfl

/-- The enumerations of the groups are named after the keys. -/
theorem map_enumName_groups (p : Phases) :
    p.groups.map PhaseGroup.enumName = p.records.keys.map Java.phaseEnum := by
  rw [← map_key_groups, List.map_map]
  rfl

/-- Two keys never share the name of an enumeration. -/
theorem phaseEnum_inj {key key' : String} (h : Java.phaseEnum key = Java.phaseEnum key') :
    key = key' :=
  (String.append_left_inj _).mp h

/-- A type name with phases is named by one enumeration. -/
theorem count_enumName (h : p.keys.contains key) :
    (p.groups.map PhaseGroup.enumName).count (Java.phaseEnum key) = 1 := by
  rw [map_enumName_groups]
  refine List.count_eq_one_of_mem ?_ (List.mem_map_of_mem (contains_keys_iff.mp h))
  exact p.records.nodup_keys.map fun _ _ heq => phaseEnum_inj heq

/-! ## Merging -/

/-- The phases with a type name, in the order in which they came. -/
def phasesOf (p : Phases) (key : String) : List Phase := (p.records.get? key).getD []

theorem groups_eq_map (p : Phases) :
    p.groups = p.records.keys.map fun key => groupOf key (p.phasesOf key) := by
  unfold groups Table.keys
  rw [List.map_map]
  refine List.map_congr_left fun e he => ?_
  have hget : p.records.get? e.1 = some e.2 := Table.get?_eq_some_iff.mpr he
  show groupOf e.1 e.2 = groupOf e.1 (p.phasesOf e.1)
  rw [phasesOf, hget]
  rfl

/-- A phase is added behind those with its key and to no others. -/
theorem phasesOf_add (p : Phases) (phase : Phase) (key : String) :
    (p.add phase).phasesOf key
      = p.phasesOf key ++ if typeName phase.entity = key then [phase] else [] := by
  unfold phasesOf add
  by_cases hkey : typeName phase.entity = key
  · rw [if_pos hkey, ← hkey, Table.get?_upsert_self]
    rfl
  · rw [if_neg hkey, Table.get?_upsert_of_ne _ _ (Ne.symm hkey), List.append_nil]

/-- A phase adds its own key at most. -/
theorem mem_keys_add {phase : Phase} :
    key ∈ (p.add phase).records.keys ↔ key ∈ p.records.keys ∨ typeName phase.entity = key := by
  rw [Table.mem_keys_iff, Table.mem_keys_iff]
  unfold add
  by_cases hkey : typeName phase.entity = key
  · simp only [← hkey, Table.get?_upsert_self, or_true, Option.some.injEq, exists_eq']
  · simp only [Table.get?_upsert_of_ne _ _ (Ne.symm hkey), hkey, or_false]

/-- Merging puts the phases of a batch after those that are there. -/
theorem phasesOf_merge (p : Phases) (batch : List Phase) (key : String) :
    (p.merge batch).phasesOf key
      = p.phasesOf key ++ batch.filter fun phase => typeName phase.entity = key := by
  unfold merge
  induction batch generalizing p with
  | nil => exact (List.append_nil _).symm
  | cons phase rest ih =>
    rw [List.foldl_cons, ih, phasesOf_add, List.append_assoc]
    by_cases hkey : typeName phase.entity = key <;> simp [hkey]

/-- A batch adds the keys of its phases and no others. -/
theorem mem_keys_merge {batch : List Phase} :
    key ∈ (p.merge batch).records.keys
      ↔ key ∈ p.records.keys ∨ ∃ phase ∈ batch, typeName phase.entity = key := by
  unfold merge
  induction batch generalizing p with
  | nil => simp
  | cons phase rest ih =>
    rw [List.foldl_cons, ih, mem_keys_add, or_assoc, List.exists_mem_cons_iff]

/-- There are as many groups as there are type names of entity types with phases. -/
theorem size_merge_empty (batch : List Phase) :
    (empty.merge batch).size = (batch.map fun phase => typeName phase.entity).toFinset.card := by
  have hkeys : (empty.merge batch).records.keys.toFinset
      = (batch.map fun phase => typeName phase.entity).toFinset := by
    ext key
    rw [List.mem_toFinset, List.mem_toFinset, mem_keys_merge, List.mem_map]
    simp [empty, Table.empty, Table.keys]
  rw [← hkeys, List.toFinset_card_of_nodup (Table.nodup_keys _), Table.keys, List.length_map]
  rfl

/-! ## The order of phases -/

/-- The phases of a group are sorted by what tells them apart. -/
theorem groupOf_eq_of_perm (key : String) {phases phases' : List Phase}
    (h : phases.Perm phases') (hids : (phases.map Phase.id).Nodup) :
    groupOf key phases = groupOf key phases' := by
  have hsort : phases.mergeSort (fun a b => (sibling a).key ≤ (sibling b).key)
      = phases'.mergeSort fun a b => (sibling a).key ≤ (sibling b).key := by
    refine mergeSort_eq_of_perm (fun phase => (sibling phase).key) h ?_
    intro a ha b hb hab
    have hid : a.id = b.id := congrArg Sibling.id (Sibling.eq_of_key_eq hab)
    exact List.inj_on_of_nodup_map hids ha hb hid
  unfold groupOf
  rw [hsort]

/-- **Enumerations of phases do not depend on the order in which phases are listed**, if these can
be told apart. -/
theorem groups_merge_eq_of_perm {batch batch' : List Phase} (h : batch.Perm batch')
    (hids : (batch.map Phase.id).Nodup) :
    (empty.merge batch).groups = (empty.merge batch').groups := by
  have hkeys : (empty.merge batch).records.keys = (empty.merge batch').records.keys := by
    refine Table.keys_eq_of_mem_iff fun key => ?_
    rw [mem_keys_merge, mem_keys_merge]
    simp only [h.mem_iff]
  rw [groups_eq_map, groups_eq_map, hkeys]
  -- each group gets the same phases in another order
  refine List.map_congr_left fun key _ => groupOf_eq_of_perm key ?_ ?_
  · rw [phasesOf_merge, phasesOf_merge]
    exact (h.filter _).append_left _
  · rw [phasesOf_merge]
    exact hids.sublist (List.filter_sublist.map Phase.id)

variable {p' : Phases} (h : p.groups = p'.groups)
include h

theorem records_keys_eq_of_groups_eq : p.records.keys = p'.records.keys := by
  rw [← map_key_groups, ← map_key_groups, h]

theorem keys_eq_of_groups_eq : p.keys = p'.keys := by
  unfold keys
  rw [records_keys_eq_of_groups_eq h]

theorem size_eq_of_groups_eq : p.size = p'.size := by
  have hlength := congrArg List.length (records_keys_eq_of_groups_eq h)
  rwa [Table.keys, Table.keys, List.length_map, List.length_map] at hlength

end TypedEntities.Phases
