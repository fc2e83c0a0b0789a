import Mathlib
import TypedEntities.Proofs.Enumeration.Phases
import TypedEntities.Proofs.Java.Distinct
import TypedEntities.Proofs.Reference

/-!
# Phases by type name

However phases come in batches, `Phases.groups` has one enumeration for every type name of an entity
type that has phases, and it holds all the phases of these entity types: `Grouped` says so, and
`Phases.merge_grouped` is the payoff. A resolver that is given the keys finds the enumeration of a
type by the same type name, whatever the spelling of the names.
-/

namespace TypedEntities

open TypedEntities.Metadata
open TypedEntities.Java (Sibling TypeExpr distinctConstants typeName)

/-- What an item says of its phase, without its constant. -/
def PhaseItem.sibling (i : PhaseItem) : Sibling := ⟨i.name, i.id⟩

namespace Phases

/-! ## One enumeration -/

/-- The phases of an enumeration, by name and id. -/
def sorted (phases : List Phase) : List Phase :=
  phases.mergeSort fun a b => (sibling a).key ≤ (sibling b).key

/-- An enumeration has a constant for each phase. -/
theorem length_constants (phases : List Phase) :
    (distinctConstants ((sorted phases).map sibling) none).length = (sorted phases).length := by
  rw [Java.length_distinctConstants, List.length_map]

theorem map_sibling_groupOf (key : String) (phases : List Phase) :
    (groupOf key phases).items.map PhaseItem.sibling = (sorted phases).map sibling := by
  refine map_zipWith_left ?_ (length_constants phases).ge
  exact fun _ _ => rfl

/-- The constants of a group are those of its phases in their order. -/
theorem map_identifier_groupOf (key : String) (phases : List Phase) :
    (groupOf key phases).items.map PhaseItem.identifier
      = distinctConstants ((sorted phases).map sibling) none :=
  map_zipWith_right (fun _ _ => rfl) (length_constants phases).le

/-- An enumeration holds its phases, each once. -/
theorem sibling_groupOf_perm (key : String) (phases : List Phase) :
    ((groupOf key phases).items.map PhaseItem.sibling).Perm (phases.map sibling) := by
  rw [map_sibling_groupOf]
  exact (List.mergeSort_perm ..).map _

/-- The phases of a group are ordered. -/
theorem pairwise_groupOf (key : String) (phases : List Phase) :
    ((groupOf key phases).items.map PhaseItem.sibling).Pairwise fun a b => a.key ≤ b.key := by
  rw [map_sibling_groupOf]
  exact List.pairwise_map.mpr (pairwise_mergeSort_key (fun phase => (sibling phase).key) phases)

theorem nodup_identifier_groupOf (key : String) (phases : List Phase) :
    ((groupOf key phases).items.map PhaseItem.identifier).Nodup := by
  rw [map_identifier_groupOf]
  exact Java.nodup_distinctConstants ..

/-- One of the entity types stands for all. -/
theorem exists_entity_groupOf (key : String) {phases : List Phase} (h : phases ≠ []) :
    ∃ phase ∈ phases, (groupOf key phases).entity = phase.entity := by
  have hperm : (sorted phases).Perm phases := List.mergeSort_perm ..
  have hne : sorted phases ≠ [] := fun hnil => h (List.nil_perm.mp (hnil ▸ hperm))
  obtain ⟨first, rest, hsorted⟩ := List.exists_cons_of_ne_nil hne
  have hfirst : first ∈ sorted phases := hsorted ▸ List.mem_cons_self ..
  refine ⟨first, hperm.mem_iff.mp hfirst, ?_⟩
  show ((sorted phases).head?.map Phase.entity).getD "" = first.entity
  rw [hsorted]
  rfl

/-! ## All enumerations -/

variable {p : Phases}

theorem mem_groups_iff {g : PhaseGroup} :
    g ∈ p.groups ↔ g.key ∈ p.records.keys ∧ g = groupOf g.key (p.phasesOf g.key) := by
  rw [groups_eq_map, List.mem_map]
  constructor
  · rintro ⟨key, hkey, rfl⟩
    exact ⟨hkey, rfl⟩
  · rintro ⟨hkey, hg⟩
    exact ⟨g.key, hkey, hg.symm⟩

/-- The enumerations of phases: one for each type name of the entity types that have phases, in
ascending order and with names of their own. Each has all the phases with its type name, by name and
id and with constants of their own, and names the entity type of one of them. -/
structure Grouped (records : List Phase) (p : Phases) : Prop where
  ascending : (p.groups.map PhaseGroup.key).Pairwise (· < ·)
  keyed : ∀ key, key ∈ p.groups.map PhaseGroup.key
    ↔ ∃ phase ∈ records, typeName phase.entity = key
  keys_eq : p.keys.keys = p.groups.map PhaseGroup.key
  contains_iff : ∀ key, p.contains key = true ↔ key ∈ p.groups.map PhaseGroup.key
  names : (p.groups.map PhaseGroup.enumName).Nodup
  holds : ∀ g ∈ p.groups, (g.items.map PhaseItem.sibling).Perm
    ((records.filter fun phase => typeName phase.entity = g.key).map sibling)
  byName : ∀ g ∈ p.groups, (g.items.map PhaseItem.sibling).Pairwise fun a b => a.key ≤ b.key
  identifiers : ∀ g ∈ p.groups, (g.items.map PhaseItem.identifier).Nodup
  entity : ∀ g ∈ p.groups, ∃ phase ∈ records,
    typeName phase.entity = g.key ∧ g.entity = phase.entity

theorem keys_keys (p : Phases) : p.keys.keys = p.records.keys := by
  refine Table.keys_eq_of_mem_iff fun key => ?_
  rw [← Table.contains_iff, contains_keys_iff]

/-- One batch has the phases of a key in the order of the batch. -/
theorem phasesOf_merge_empty (batch : List Phase) (key : String) :
    (empty.merge batch).phasesOf key = batch.filter fun phase => typeName phase.entity = key :=
  phasesOf_merge ..

/-- Merging phases groups them. -/
theorem grouped_merge (batch : List Phase) : Grouped batch (empty.merge batch) where
  ascending := by
    rw [map_key_groups]
    exact (empty.merge batch).records.ascending
  keyed := by
    intro key
    rw [map_key_groups, mem_keys_merge, or_iff_right]
    exact List.not_mem_nil
  keys_eq := by rw [keys_keys, map_key_groups]
  contains_iff := by
    intro key
    rw [map_key_groups]
    exact Table.contains_iff
  names := by
    rw [map_enumName_groups]
    exact (Table.nodup_keys _).map fun _ _ h => phaseEnum_inj h
  holds := by
    intro g hg
    rw [(mem_groups_iff.mp hg).2, phasesOf_merge_empty]
    exact sibling_groupOf_perm ..
  byName := by
    intro g hg
    rw [(mem_groups_iff.mp hg).2]
    exact pairwise_groupOf ..
  identifiers := by
    intro g hg
    rw [(mem_groups_iff.mp hg).2]
    exact nodup_identifier_groupOf ..
  entity := by
    intro g hg
    -- a key comes from a phase of the batch, so its group is not empty
    obtain ⟨hkey, hg⟩ := mem_groups_iff.mp hg
    obtain ⟨phase, hphase, hname⟩ := (mem_keys_merge.mp hkey).resolve_left List.not_mem_nil
    have hmem : phase ∈ (empty.merge batch).phasesOf g.key := by
      rw [phasesOf_merge_empty]
      exact List.mem_filter.mpr ⟨hphase, decide_eq_true hname⟩
    obtain ⟨chosen, hchosen, hentity⟩ := exists_entity_groupOf g.key (List.ne_nil_of_mem hmem)
    rw [phasesOf_merge_empty] at hchosen
    obtain ⟨hbatch, hkey⟩ := List.mem_filter.mp hchosen
    exact ⟨chosen, hbatch, of_decide_eq_true hkey, (congrArg PhaseGroup.entity hg).trans hentity⟩

/-! ## Batches -/

/-- Two batches one after the other are one batch. -/
theorem merge_append (p : Phases) (batch batch' : List Phase) :
    (p.merge batch).merge batch' = p.merge (batch ++ batch') :=
  List.foldl_append.symm

/-- Batches that are merged one after the other are one batch. -/
theorem foldl_merge (p : Phases) (batches : List (List Phase)) :
    batches.foldl merge p = p.merge batches.flatten :=
  List.foldl_flatten.symm

/-- A further batch takes nothing away. -/
theorem exists_subperm_merge (batch : List Phase) {g : PhaseGroup} (hg : g ∈ p.groups) :
    ∃ g' ∈ (p.merge batch).groups, g'.key = g.key
      ∧ (g.items.map PhaseItem.sibling).Subperm (g'.items.map PhaseItem.sibling) := by
  obtain ⟨hkey, hitems⟩ := mem_groups_iff.mp hg
  refine ⟨groupOf g.key ((p.merge batch).phasesOf g.key),
    mem_groups_iff.mpr ⟨mem_keys_merge.mpr (.inl hkey), rfl⟩, rfl, ?_⟩
  -- sorting does not matter, and before it the new phases are put behind the old ones
  have hbefore : ((p.phasesOf g.key).map sibling).Subperm
      (((p.merge batch).phasesOf g.key).map sibling) := by
    rw [phasesOf_merge, List.map_append]
    exact (List.sublist_append_left ..).subperm
  rw [hitems]
  exact ((sibling_groupOf_perm ..).subperm_right.mpr hbefore).trans
    (sibling_groupOf_perm ..).symm.subperm

/-! ## The enumeration of an owner -/

/-- A resolver that is given the keys finds the enumeration with the type name of the owner. -/
theorem resolve_eq_phase_iff {records : List Phase} (hp : Grouped records p) (catalog : Catalog)
    (lists : Table String String) {owner key : String} {field : Field}
    (hfield : field.name = phaseField) :
    (Resolver.mk catalog lists p.keys).resolve owner field = .ok (.phase key)
      ↔ (∃ phase ∈ records, typeName phase.entity = typeName owner) ∧ typeName owner = key := by
  rw [Resolver.resolve_eq_phase_iff, Resolver.ownsPhase, decide_eq_true hfield, Bool.true_and,
    ← hp.keyed, ← hp.keys_eq, ← Table.contains_iff]

/-- **Phases are grouped by the type name of their entity type**, in whatever batches they come. A
further batch takes nothing away, and a phase of an owner is looked up where phases have its type
name: in the enumeration with this key. -/
theorem merge_grouped (batches : List (List Phase)) :
    let p := batches.foldl merge empty
    Grouped batches.flatten p
      ∧ (∀ q a b, (merge q a).merge b = q.merge (a ++ b))
      ∧ (∀ batches' : List (List Phase), batches'.flatten = batches.flatten →
          batches'.foldl merge empty = p)
      ∧ (∀ batch, ∀ g ∈ p.groups, ∃ g' ∈ (p.merge batch).groups, g'.key = g.key
          ∧ (g.items.map PhaseItem.sibling).Subperm (g'.items.map PhaseItem.sibling))
      ∧ ∀ catalog lists owner, ∀ field : Field, field.name = phaseField →
          let resolved := (Resolver.mk catalog lists p.keys).resolve owner field
          ((∃ key, resolved = .ok (.phase key))
              ↔ ∃ phase ∈ batches.flatten, typeName phase.entity = typeName owner)
            ∧ ∀ key, resolved = .ok (.phase key) → ∃ g ∈ p.groups, g.key = typeName owner
              ∧ ∀ package, (Resolution.phase key).types.map (TypeExpr.text package)
                = [package ++ ".enums.Phases." ++ g.enumName] := by
  intro p
  have hp : Grouped batches.flatten p := by
    show Grouped _ (batches.foldl merge empty)
    rw [foldl_merge]
    exact grouped_merge _
  refine ⟨hp, merge_append, ?_, fun batch g hg => exists_subperm_merge batch hg, ?_⟩
  · intro batches' hflatten
    show batches'.foldl merge empty = batches.foldl merge empty
    rw [foldl_merge, foldl_merge, hflatten]
  · intro catalog lists owner field hfield resolved
    have hresolved : ∀ key, resolved = .ok (.phase key)
        ↔ (∃ phase ∈ batches.flatten, typeName phase.entity = typeName owner)
          ∧ typeName owner = key :=
      fun key => resolve_eq_phase_iff hp catalog lists hfield
    constructor
    · exact ⟨fun ⟨key, hkey⟩ => ((hresolved key).mp hkey).1,
        fun hphase => ⟨_, (hresolved _).mpr ⟨hphase, rfl⟩⟩⟩
    · -- the owner has a phase, so there is a group with its type name
      intro key hkey
      obtain ⟨hphase, hname⟩ := (hresolved key).mp hkey
      obtain ⟨g, hg, hgkey⟩ := List.mem_map.mp ((hp.keyed _).mpr hphase)
      refine ⟨g, hg, hgkey, fun package => ?_⟩
      rw [PhaseGroup.enumName, hgkey, hname]
      rfl

/-- Two spellings of one type name, and a third of the owner. -/
theorem merge_grouped_spellings :
    let p := [[Phase.mk "1" "New" "work_item"], [Phase.mk "2" "Done" "work-item"]].foldl merge empty
    ∃ key, (Resolver.mk (Catalog.ofList []) Table.empty p.keys).resolve "workItem"
        (Field.plain "phase" .reference) = .ok (.phase key)
      ∧ ∃ g ∈ p.groups, ∃ g' ∈ (p.merge [⟨"3", "Done", "Work_Item"⟩]).groups, g'.key = g.key
        ∧ (g.items.map PhaseItem.sibling).Subperm (g'.items.map PhaseItem.sibling) := by
  intro p
  obtain ⟨-, -, -, hkept, hresolve⟩ :=
    merge_grouped [[Phase.mk "1" "New" "work_item"], [Phase.mk "2" "Done" "work-item"]]
  obtain ⟨hiff, hgroup⟩ := hresolve (Catalog.ofList []) Table.empty "workItem"
    (Field.plain "phase" .reference) rfl
  obtain ⟨key, hkey⟩ := hiff.mpr ⟨⟨"1", "New", "work_item"⟩, by decide, by decide⟩
  obtain ⟨g, hg, -, -⟩ := hgroup key hkey
  exact ⟨key, hkey, g, hg, hkept _ g hg⟩

end Phases

end TypedEntities
