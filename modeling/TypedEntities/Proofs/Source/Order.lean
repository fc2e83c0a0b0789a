import Mathlib
import TypedEntities.Proofs.Catalog
import TypedEntities.Proofs.Listing
import TypedEntities.Source.Emitted

/-!
# Sources and the order of fields

The sources of an entity type list its fields by name. If the names are distinct, the order in which
a server lists the fields has no bearing on them: `Package.entitySources_eq`.
-/

namespace TypedEntities

open TypedEntities.Metadata
open TypedEntities.Catalog (SameType)

/-- Fields whose names differ have one order by name, however they are listed. -/
theorem sortFields_eq_of_perm {fields fields' : List Field} (h : fields.Perm fields')
    (hnames : (fields.map Field.name).Nodup) : sortFields fields = sortFields fields' :=
  mergeSort_eq_of_perm Field.name h fun _ ha _ hb hab => List.inj_on_of_nodup_map hnames ha hb hab

/-! ## Resolvers -/

/-- Resolvers that know the same, though the entity types in their catalogs may list their fields in
different orders. -/
structure Resolver.Alike (r r' : Resolver) : Prop where
  names : r.catalog.names = r'.catalog.names
  edges : r.catalog.edges = r'.catalog.edges
  lists : r.lists = r'.lists
  phases : r.phases = r'.phases

namespace Resolver.Alike

variable {r r' : Resolver} (h : r.Alike r')
include h

/-- The same types get a model. -/
theorem isGenerated_eq : r.catalog.isGenerated = r'.catalog.isGenerated :=
  Catalog.isGenerated_eq_of_names_eq h.names

/-- The same fields hold phases of their owners. -/
theorem ownsPhase_eq (owner : String) (field : Field) :
    r.ownsPhase owner field = r'.ownsPhase owner field := by
  unfold ownsPhase
  rw [h.phases]

/-- A reference to one entity is resolved by names and edges, which are the same. -/
theorem resolveEntity_eq (targets : List Target) :
    r.resolveEntity targets = r'.resolveEntity targets := by
  unfold resolveEntity concreteTypes
  rw [h.isGenerated_eq, Catalog.leaves_eq_of_edges_eq h.edges]

/-- So is one to several entities. -/
theorem resolveCollection_eq (targets : List Target) :
    r.resolveCollection targets = r'.resolveCollection targets := by
  unfold resolveCollection
  rw [h.isGenerated_eq]

/-- The same lists are known. -/
theorem resolveList_eq (owner : String) (field : Field) (target : Target) :
    r.resolveList owner field target = r'.resolveList owner field target := by
  unfold resolveList
  rw [h.lists]

/-- Each reference is resolved to the same, or refused for the same reason. -/
theorem resolve_eq (owner : String) (field : Field) :
    r.resolve owner field = r'.resolve owner field := by
  unfold resolve
  simp only [h.ownsPhase_eq, h.resolveEntity_eq, h.resolveCollection_eq, h.resolveList_eq]

/-- Each field accepts the same types. -/
theorem candidates_eq (owner : String) (field : Field) :
    r.candidates owner field = r'.candidates owner field := by
  unfold candidates
  rw [h.ownsPhase_eq, h.resolve_eq]

end Resolver.Alike

/-! ## Sources -/

variable {a b : Entity} {r r' : Resolver}

/-- A model does not depend on the order of the fields; there are as many constructors, with the
same parameters, or the same failure. -/
theorem ModelSource.of_eq (package : String) (hr : r.Alike r') (h : SameType a b)
    (hnames : (a.fields.map Field.name).Nodup) :
    ModelSource.of package a r = ModelSource.of package b r' := by
  have hfields : resolveFields r a = resolveFields r' b := by
    unfold resolveFields
    rw [sortFields_eq_of_perm h.fields_perm hnames, h.eq_withFields]
    simp only [hr.candidates_eq]
    rfl
  unfold ModelSource.of
  rw [hfields, h.eq_withFields]
  rfl

/-- An interface does not depend on fields at all. -/
theorem InterfaceSource.of_eq (package : String) (hr : r.Alike r') (h : SameType a b) :
    InterfaceSource.of package a r.catalog = InterfaceSource.of package b r'.catalog := by
  unfold InterfaceSource.of
  rw [hr.isGenerated_eq, h.eq_withFields]
  rfl

/-- An entity list numbers its constants in the order of names, whatever the order of the fields. -/
theorem EntityListSource.of?_eq (package : String) (h : SameType a b)
    (hnames : (a.fields.map Field.name).Nodup) :
    EntityListSource.of? package a = EntityListSource.of? package b := by
  unfold EntityListSource.of?
  rw [sortFields_eq_of_perm h.fields_perm hnames, h.eq_withFields]
  rfl

/-- **The sources of an entity type do not depend on the order of its fields**, if these have
different names. -/
theorem Package.entitySources_eq (p : Package) (hr : r.Alike r') (h : SameType a b)
    (hnames : (a.fields.map Field.name).Nodup) :
    p.entitySources r a = p.entitySources r' b := by
  unfold entitySources
  rw [ModelSource.of_eq p.name hr h hnames, InterfaceSource.of_eq p.name hr h,
    EntityListSource.of?_eq p.name h hnames]

end TypedEntities
