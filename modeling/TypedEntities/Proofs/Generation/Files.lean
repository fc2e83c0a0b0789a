import Mathlib
import TypedEntities.Proofs.Generation.References
import TypedEntities.Proofs.Source.Place

/-!
# The files of a run

Which files a run writes depends on what it knows and on nothing else: one for each list in the
order of the identifiers, the file of the phases, and two or three for each entity type that gets a
model, in the order of the names. `Knowledge.places` and `Knowledge.files` list them;
`map_place_sources` and `map_file_sources` say that these are the places and the files of the sources
that the run makes, whatever fields the server lists.
-/

namespace TypedEntities

open TypedEntities.Metadata
open TypedEntities.Java (typeName modelClass interfaceName)

variable {σ τ : Type}

/-! ## One entity type -/

/-- One of the features of the type is a collection. -/
def Metadata.Entity.HasCollection (e : Entity) : Prop :=
  ∃ url methods, Feature.rest url methods ∈ e.features

/-- A type has an address if it has a collection. -/
theorem Metadata.Entity.isSome_rest?_iff {e : Entity} :
    e.rest?.isSome = true ↔ e.HasCollection := by
  unfold rest? HasCollection
  rw [List.isSome_findSome?, List.any_eq_true]
  constructor
  · rintro ⟨feature, hmem, hsome⟩
    cases feature with
    | rest url methods => exact ⟨url, methods, hmem⟩
    | _ => cases hsome
  · rintro ⟨url, methods, hmem⟩
    exact ⟨_, hmem, rfl⟩

instance (e : Entity) : Decidable e.HasCollection :=
  decidable_of_iff _ Metadata.Entity.isSome_rest?_iff

/-- The places of an entity type: of its model, of its interface, and of its list class if it has a
collection. -/
def entityPlaces (entity : Entity) : List Place :=
  [⟨"model", modelClass entity.name⟩, ⟨"model", interfaceName entity.name⟩]
    ++ if entity.HasCollection then [⟨"entities", typeName entity.name ++ "EntityList"⟩] else []

/-- The files of an entity type. -/
def Layout.entityFiles (l : Layout) (entity : Entity) : List String :=
  [l.model (modelClass entity.name), l.model (interfaceName entity.name)]
    ++ if entity.HasCollection then [l.entityList (typeName entity.name ++ "EntityList")] else []

theorem Layout.entityFiles_eq (l : Layout) (entity : Entity) :
    l.entityFiles entity = (entityPlaces entity).map fun p => p.file l := by
  unfold entityFiles entityPlaces
  split <;> rfl

theorem Layout.length_entityFiles (l : Layout) (entity : Entity) :
    (l.entityFiles entity).length = 2 + if entity.HasCollection then 1 else 0 := by
  unfold entityFiles
  split <;> rfl

/-- The sources of an entity type go to its places. -/
theorem Package.map_place_entitySources {p : Package} {r : Resolver} {entity : Entity}
    {part : List Source} (h : p.entitySources r entity = .ok part) :
    part.map Source.place = entityPlaces entity := by
  obtain ⟨m, hm, rfl⟩ := entitySources_ok h
  have hentity : m.entity = entity.name := (ModelSource.uses_of hm).1
  have hmodel : (Source.model m).place = ⟨"model", modelClass entity.name⟩ := by
    rw [← hentity]
    rfl
  unfold entityPlaces EntityListSource.of?
  rw [List.map_cons, hmodel]
  simp only [← Entity.isSome_rest?_iff]
  cases entity.rest? <;> rfl

/-! ## All sources -/

namespace Generator

namespace Knowledge

/-- The places of all sources. -/
def places (k : Knowledge) : List Place :=
  k.lists.enums.map (fun list => ⟨"enums/lists", list.identifier⟩)
    ++ ⟨"enums", "Phases"⟩ :: k.generated.flatMap entityPlaces

/-- The files of all sources. -/
def files (k : Knowledge) (l : Layout) : List String :=
  k.lists.enums.map (fun list => l.list list.identifier)
    ++ l.phases :: k.generated.flatMap l.entityFiles

theorem files_eq (k : Knowledge) (l : Layout) :
    k.files l = k.places.map fun p => p.file l := by
  have hentities : l.entityFiles = fun e => (entityPlaces e).map fun p => p.file l :=
    funext l.entityFiles_eq
  unfold files places
  rw [List.map_append, List.map_cons, List.map_map, List.map_flatMap, hentities]
  rfl

end Knowledge

variable {g : Generator σ τ} {k : Knowledge}

/-- The sources of entity types go to their places. -/
theorem map_place_flatten {r : Resolver} {entities : List Entity} {parts : List (List Source)}
    (h : List.Forall₂ (g.Makes r) entities parts) :
    parts.flatten.map Source.place = entities.flatMap entityPlaces := by
  induction h with
  | nil => rfl
  | cons hpart _ ih =>
    obtain ⟨fields, hmakes⟩ := hpart
    have hplaces := Package.map_place_entitySources hmakes
    rw [List.flatten_cons, List.map_append, ih, List.flatMap_cons]
    -- fields have no bearing on the places
    exact congrArg (· ++ _) hplaces

/-- **The sources of a run go to the places of what it knows.** -/
theorem map_place_sources {parts : List (List Source)}
    (h : List.Forall₂ (g.Makes k.resolver) k.generated parts) :
    (k.sources g.package parts).map Source.place = k.places := by
  unfold Knowledge.sources Knowledge.places
  rw [List.map_append, List.map_cons, map_place_flatten h, List.map_map]
  rfl

/-- The files of the sources of a run. -/
theorem map_file_sources {parts : List (List Source)}
    (h : List.Forall₂ (g.Makes k.resolver) k.generated parts) :
    (k.sources g.package parts).map g.fileOf = k.files g.package.layout := by
  rw [Knowledge.files_eq, ← map_place_sources h, List.map_map]
  exact List.map_congr_left fun source _ => Layout.file_eq _ source

/-- Every list has a file, the phases have one, and every entity type has two or three. -/
theorem Knowledge.length_files (k : Knowledge) (l : Layout) :
    (k.files l).length
      = k.lists.enums.length + 1 + 2 * k.generated.length
        + k.generated.countP fun e => e.HasCollection := by
  have hentities : (k.generated.flatMap l.entityFiles).length
      = 2 * k.generated.length + k.generated.countP fun e => e.HasCollection := by
    induction k.generated with
    | nil => rfl
    | cons e entities ih =>
      rw [List.flatMap_cons, List.length_append, ih, Layout.length_entityFiles, List.length_cons,
        List.countP_cons]
      simp only [decide_eq_true_eq]
      omega
  unfold Knowledge.files
  rw [List.length_append, List.length_cons, hentities, List.length_map]
  omega

/-- The entity types of a report are those that get a model. -/
theorem Knowledge.report_entities {types : List Entity} (h : k.catalog = .ofList types)
    (files : List String) : (k.report files).entities = k.generated.map Entity.name := by
  unfold report generated
  rw [h]
  exact Catalog.filter_names_ofList types fun name => !isExcluded name

end Generator

end TypedEntities
