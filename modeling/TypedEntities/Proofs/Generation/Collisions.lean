import Mathlib
import TypedEntities.Proofs.Files.Memory
import TypedEntities.Proofs.Generation.Files
import TypedEntities.Proofs.Generation.InMemory
import TypedEntities.Proofs.Generation.Places

/-!
# Which files collide

The files of lists and phases never stand in the way of each other or of those of entity types. The
files of two entity types do exactly if the types have one type name. So no path of a run is named
twice exactly if the entity types of its report have different type names, and then files in memory
hold for each path what was made for it, and nothing else: `Generator.start_collisions`.
-/

namespace TypedEntities

open TypedEntities.Metadata
open TypedEntities.Java (typeName modelClass interfaceName)

variable {σ τ : Type}

/-! ## The places of two entity types -/

/-- Models and interfaces have different names. -/
theorem modelClass_ne_interfaceName (a b : String) : modelClass a ≠ interfaceName b := by
  intro h
  have hlast := congrArg (fun name => name.toList.getLast?) h
  unfold modelClass interfaceName at hlast
  simp only [String.toList_append] at hlast
  rw [List.getLast?_append_of_ne_nil _ (by decide), List.getLast?_append_of_ne_nil _ (by decide)]
    at hlast
  revert hlast
  decide

/-- What the place of a source of an entity type can be. -/
theorem mem_entityPlaces {e : Entity} {p : Place} (h : p ∈ entityPlaces e) :
    p = ⟨"model", modelClass e.name⟩ ∨ p = ⟨"model", interfaceName e.name⟩
      ∨ p = ⟨"entities", typeName e.name ++ "EntityList"⟩ := by
  rcases List.mem_append.mp h with h | h
  · rcases List.mem_pair.mp h with h | h
    · exact .inl h
    · exact .inr (.inl h)
  · split at h
    · exact .inr (.inr (List.mem_singleton.mp h))
    · cases h

/-- A place of two entity types gives them one type name. -/
theorem typeName_eq_of_mem {e e' : Entity} {p : Place} (h : p ∈ entityPlaces e)
    (h' : p ∈ entityPlaces e') : typeName e.name = typeName e'.name := by
  rcases mem_entityPlaces h with rfl | rfl | rfl <;>
    rcases mem_entityPlaces h' with heq | heq | heq <;>
    obtain ⟨hfolder, hstem⟩ := Place.mk.inj heq
  · exact (String.append_left_inj _).mp hstem
  · exact absurd hstem (modelClass_ne_interfaceName _ _)
  · exact absurd hfolder (by decide)
  · exact absurd hstem.symm (modelClass_ne_interfaceName _ _)
  · exact (String.append_left_inj _).mp hstem
  · exact absurd hfolder (by decide)
  · exact absurd hfolder (by decide)
  · exact absurd hfolder (by decide)
  · exact (String.append_left_inj _).mp hstem

/-- Entity types have no place in common exactly if they have different type names. -/
theorem disjoint_entityPlaces_iff {e e' : Entity} :
    List.Disjoint (entityPlaces e) (entityPlaces e') ↔ typeName e.name ≠ typeName e'.name := by
  constructor
  · intro hdisjoint heq
    have hmodel : modelClass e.name = modelClass e'.name := Java.modelClass_inj.mpr heq
    refine hdisjoint (a := ⟨"model", modelClass e.name⟩) (List.mem_cons_self ..) ?_
    rw [hmodel]
    exact List.mem_cons_self ..
  · intro hne p h h'
    exact hne (typeName_eq_of_mem h h')

/-- Different entity types can have one type name. -/
example : typeName "work item" = typeName "work_item" := by decide

theorem nodup_entityPlaces (e : Entity) : (entityPlaces e).Nodup := by
  have hne := modelClass_ne_interfaceName e.name e.name
  unfold entityPlaces
  split <;> simp [hne]

namespace Generator

/-! ## All places -/

namespace Knowledge

variable {k : Knowledge}

/-- No entity type has a place in a folder of enumerations. -/
theorem notMem_flatMap_entityPlaces {p : Place} (hmodel : p.folder ≠ "model")
    (hentities : p.folder ≠ "entities") (entities : List Entity) :
    p ∉ entities.flatMap entityPlaces := by
  intro h
  obtain ⟨e, -, hp⟩ := List.mem_flatMap.mp h
  rcases mem_entityPlaces hp with rfl | rfl | rfl
  · exact hmodel rfl
  · exact hmodel rfl
  · exact hentities rfl

/-- **No place is taken twice exactly if no two entity types have one type name.** -/
theorem nodup_places_iff (h : (k.lists.enums.map ListEnum.identifier).Nodup) :
    k.places.Nodup ↔ ((k.generated.map Entity.name).map typeName).Nodup := by
  have hlists : (k.lists.enums.map fun list => Place.mk "enums/lists" list.identifier).Nodup := by
    refine List.Nodup.of_map Place.stem ?_
    rwa [List.map_map]
  have hentities : (k.generated.flatMap entityPlaces).Nodup
      ↔ ((k.generated.map Entity.name).map typeName).Nodup := by
    rw [List.nodup_flatMap, List.map_map]
    refine (and_iff_right fun e _ => nodup_entityPlaces e).trans ?_
    unfold List.Nodup
    rw [List.pairwise_map]
    exact List.Pairwise.iff fun _ _ => disjoint_entityPlaces_iff
  have hphases : ⟨"enums", "Phases"⟩ ∉ k.generated.flatMap entityPlaces :=
    notMem_flatMap_entityPlaces (by decide) (by decide) _
  -- the folders differ, so places of different kinds do
  have hapart : List.Disjoint
      (k.lists.enums.map fun list => Place.mk "enums/lists" list.identifier)
      (⟨"enums", "Phases"⟩ :: k.generated.flatMap entityPlaces) := by
    intro p hp hrest
    obtain ⟨list, -, rfl⟩ := List.mem_map.mp hp
    rcases List.mem_cons.mp hrest with heq | hrest
    · have hfolder : "enums/lists" = "enums" := congrArg Place.folder heq
      exact absurd hfolder (by decide)
    · exact notMem_flatMap_entityPlaces (show "enums/lists" ≠ "model" by decide)
        (show "enums/lists" ≠ "entities" by decide) _ hrest
  unfold places
  rw [List.nodup_append', List.nodup_cons, hentities]
  exact ⟨fun h => h.2.1.2, fun h => ⟨hlists, ⟨hphases, h⟩, hapart⟩⟩

end Knowledge

/-! ## The files of a run -/

/-- Legal places give different paths exactly if they are different. -/
theorem nodup_map_file_iff {places : List Place} (h : ∀ p ∈ places, p.IsLegal) (l : Layout) :
    ((places.map fun p => p.file l).map Path.sortKey).Nodup ↔ places.Nodup := by
  rw [List.map_map]
  refine ⟨List.Nodup.of_map _, List.Nodup.map_on fun p hp p' hp' heq => ?_⟩
  exact (Place.file_inj (h p hp) (h p' hp')).mp heq

variable {g : Generator σ τ} {s : σ} {sink : τ} {report : Report} {q : Progress σ τ}

/-- The files of a report are those of legal places, all different exactly if no two entity types of
the report have one type name. -/
theorem start_places (h : g.start s sink = (.ok report, q)) :
    ∃ places : List Place, (∀ p ∈ places, p.IsLegal)
      ∧ report.files = places.map (fun p => p.file g.package.layout)
      ∧ (places.Nodup ↔ Set.InjOn typeName {name | name ∈ report.entities}) := by
  have hwritten := start_written h
  obtain ⟨k, parts, hk, hparts, hsources, rfl⟩ := start_ok h
  obtain ⟨types, hcatalog⟩ := hk.catalog
  obtain ⟨roots, values, hlists⟩ := hk.lists
  refine ⟨k.places, fun p hp => ?_, ?_, ?_⟩
  · rw [← map_place_sources hparts, ← hsources] at hp
    obtain ⟨source, hsource, rfl⟩ := List.mem_map.mp hp
    exact isLegal_of_mem_plan (hwritten ▸ hsource)
  · show q.written.map g.fileOf = _
    rw [hsources, map_file_sources hparts, Knowledge.files_eq]
  · have hidentifiers : (k.lists.enums.map ListEnum.identifier).Nodup := by
      rw [hlists]
      exact (Lists.identifiers_build_perm roots values _).nodup_iff.mpr
        (Java.nodup_distinctConstants _ _)
    have hentities := Knowledge.report_entities hcatalog (q.written.map g.fileOf)
    -- entity types have different names, so only equal type names can make places equal
    have hnames : (k.generated.map Entity.name).Nodup := by
      rw [← hentities]
      exact (Table.nodup_keys k.catalog.entities).filter _
    rw [hentities, Knowledge.nodup_places_iff hidentifiers, List.nodup_map_iff_inj_on hnames]
    exact ⟨fun hinj name hname other hother => hinj name hname other hother,
      fun hinj name hname other hother => hinj hname hother⟩

/-! ## What memory holds -/

/-- Texts that are handed over, each with its file. -/
def textsOf (g : Generator σ τ) (handed : List (Source × String)) : List (String × String) :=
  handed.map fun h => (g.fileOf h.1, h.2)

/-- What is handed to a sink in memory is written to it. -/
theorem handOver_inMemory (g : Generator σ τ) (m : MemoryFiles) (handed : List (Source × String)) :
    g.inMemory.handOver m handed = m.writeAll (g.textsOf handed) := by
  unfold handOver MemoryFiles.writeAll textsOf
  rw [List.foldl_map]
  rfl

/-- **Files in memory keep what was written**: for each path of a report there is one source, and its
rendering is there; there are no other paths. -/
structure Keeps (g : Generator σ τ) (files : List String) (written : List Source)
    (m : MemoryFiles) : Prop where
  texts : ∀ path ∈ files, ∃ source ∈ written, g.fileOf source = path
    ∧ (∀ other ∈ written, Path.sortKey (g.fileOf other) = Path.sortKey path → other = source)
    ∧ ∃ text, g.render source.kind source.context = .ok text ∧ m.get? path = some text
  paths : m.paths.Perm files

/-- A run in memory keeps what it has written, if no path was named twice. -/
theorem keeps_of_nodup {q : Progress σ MemoryFiles}
    (h : g.inMemory.start s .empty = (.ok report, q))
    (hkeys : (report.files.map Path.sortKey).Nodup) :
    g.Keeps report.files q.written q.sink := by
  obtain ⟨hplan, hreport⟩ := start_carryOut_ok h
  have hwritten := start_written h
  have hfiles : report.files = q.written.map g.fileOf := by
    rw [hreport, hwritten]
    rfl
  obtain ⟨handed, hhanded, hall⟩ := carryOut_handed hplan
  have hsink : q.sink = MemoryFiles.empty.writeAll (g.textsOf handed) :=
    hhanded.sink_eq.trans (handOver_inMemory g .empty handed)
  have hpaths : (g.textsOf handed).map Prod.fst = report.files := by
    rw [hfiles, hwritten, ← hall rfl, textsOf, List.map_map, List.map_map]
    rfl
  -- no path is written twice, so nothing is overwritten
  have hdistinct : (MemoryFiles.keysOf (g.textsOf handed)).Nodup := by
    rwa [← hpaths, List.map_map] at hkeys
  constructor
  case texts =>
    intro path hpath
    rw [hfiles] at hpath
    obtain ⟨source, hsource, rfl⟩ := List.mem_map.mp hpath
    have hmem := hsource
    rw [hwritten, ← hall rfl] at hmem
    obtain ⟨h, hh, rfl⟩ := List.mem_map.mp hmem
    refine ⟨h.1, hsource, rfl, fun other hother heq => ?_, h.2, hhanded.rendered h hh, ?_⟩
    · rw [hfiles, List.map_map] at hkeys
      exact List.inj_on_of_nodup_map hkeys hother hsource heq
    · rw [hsink]
      exact MemoryFiles.get?_writeAll hdistinct (List.mem_map_of_mem hh)
  case paths =>
    have hperm := MemoryFiles.paths_writeAll_perm (m := .empty) hdistinct fun _ _ => List.not_mem_nil
    rw [hsink, ← hpaths]
    exact hperm

/-- **No file of a run overwrites another exactly if its entity types have different type names.**
Then the same run in memory keeps all that was written. -/
theorem start_collisions (h : g.start s sink = (.ok report, q)) :
    ((report.files.map Path.sortKey).Nodup ↔ Set.InjOn typeName {name | name ∈ report.entities})
      ∧ (report.files.Nodup ↔ Set.InjOn typeName {name | name ∈ report.entities})
      ∧ (Set.InjOn typeName {name | name ∈ report.entities} →
          (g.inMemory.start s .empty).1 = .ok report
            ∧ g.Keeps report.files q.written (g.inMemory.start s .empty).2.sink) := by
  obtain ⟨places, hlegal, hfiles, hplaces⟩ := start_places h
  have hkeys : (report.files.map Path.sortKey).Nodup
      ↔ Set.InjOn typeName {name | name ∈ report.entities} := by
    rw [hfiles, nodup_map_file_iff hlegal]
    exact hplaces
  refine ⟨hkeys, ⟨fun hnodup => ?_, fun hinj => (hkeys.mpr hinj).of_map _⟩, fun hinj => ?_⟩
  · rw [hfiles] at hnodup
    exact hplaces.mp (hnodup.of_map _)
  · obtain ⟨q', hstart, hwritten⟩ := start_inMemory h .empty
    rw [hstart, ← hwritten]
    exact ⟨rfl, keeps_of_nodup hstart (hkeys.mpr hinj)⟩

theorem start_small_collisions :
    ∃ report q, small.start () .empty = (.ok report, q)
      ∧ Set.InjOn typeName {name | name ∈ report.entities}
      ∧ small.Keeps report.files q.written (small.inMemory.start () .empty).2.sink := by
  obtain ⟨report, q, hstart⟩ := start_small_ok
  have hnodup : ((small.start () .empty).1.toOption.getD default).files.Nodup := by decide +kernel
  rw [hstart] at hnodup
  obtain ⟨-, hfiles, hmemory⟩ := start_collisions hstart
  have hinj := hfiles.mp hnodup
  exact ⟨report, q, hstart, hinj, (hmemory hinj).2⟩

end Generator

end TypedEntities
