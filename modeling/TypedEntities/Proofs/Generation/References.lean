import Mathlib
import TypedEntities.Proofs.Catalog
import TypedEntities.Proofs.Enumeration.Lists
import TypedEntities.Proofs.Enumeration.Phases
import TypedEntities.Proofs.Generation.Run
import TypedEntities.Proofs.Source.Model

/-!
# No dangling references

The sources of a run name types of each other: models, interfaces, enumerations of lists and of
phases. The resolver decides by the catalog, the lists and the phases what may be named, while the
loops of the run decide what is written. `Generator.start_resolved` says that they agree: whatever a
source of a run that ends well names is written by the same run.
-/

namespace TypedEntities

open TypedEntities.Metadata
open TypedEntities.Java (TypeExpr scalarType modelClass interfaceName phaseEnum)

/-! ## What it means to be there -/

/-- A type is there: its file is among those of a run, one enumeration of phases has its name, or it
comes with the libraries that all sources are written for. -/
def Declared (l : Layout) (files : List String) (phases : PhasesSource) : TypeExpr → Prop
  | .scalar javaType => ∃ fieldType, javaType = scalarType fieldType
  | .model entity => l.model (modelClass entity) ∈ files
  | .generic => True
  | .list identifier _ => l.list identifier ∈ files
  | .phase key => (phases.groups.map PhaseGroup.enumName).count (phaseEnum key) = 1
  | .collection none => True
  | .collection (some entity) => l.model (interfaceName entity) ∈ files

/-- Everything that a source names besides itself is there. Enumerations name nothing else. -/
def Source.Resolved (p : Package) (files : List String) (phases : PhasesSource) : Source → Prop
  | .list _ => True
  | .phases s => s = phases
  | .model m =>
    m.Uses p.name (Declared p.layout files phases) ∧ p.layout.model m.interface ∈ files
  | .interface i =>
    i.superInterface = InterfaceSource.top ∨ p.layout.model i.superInterface ∈ files
  | .entityList l => p.layout.model l.modelClass ∈ files

theorem ModelSource.Uses.imp {package : String} {P Q : TypeExpr → Prop} {m : ModelSource}
    (h : m.Uses package P) (himp : ∀ t, P t → Q t) : m.Uses package Q where
  package_eq := h.package_eq
  fields := by
    intro f hf
    obtain ⟨types, htypes⟩ := h.fields f hf
    exact ⟨types, fun t ht => himp t (htypes.holds t ht), htypes.getter, htypes.setters⟩
  parameters := by
    intro c hc q hq
    obtain ⟨name, t, ht, heq⟩ := h.parameters c hc q hq
    exact ⟨name, t, himp t ht, heq⟩

/-! ## The sources of one entity type -/

namespace Package

variable {p : Package} {r : Resolver} {entity : Entity} {part : List Source}

/-- The sources of an entity type are its model, its interface and a list class or none. -/
theorem entitySources_ok (h : p.entitySources r entity = .ok part) :
    ∃ m, ModelSource.of p.name entity r = .ok m
      ∧ part = .model m :: .interface (InterfaceSource.of p.name entity r.catalog)
        :: ((EntityListSource.of? p.name entity).map .entityList).toList := by
  obtain ⟨m, hm, hrest⟩ := Outcome.bind_eq_ok.mp h
  cases hrest
  exact ⟨m, hm, rfl⟩

/-- The model and the interface of an entity type go to the files of its name. -/
theorem files_of_entitySources (h : p.entitySources r entity = .ok part) :
    p.layout.model (modelClass entity.name) ∈ part.map p.layout.file
      ∧ p.layout.model (interfaceName entity.name) ∈ part.map p.layout.file := by
  obtain ⟨m, hm, rfl⟩ := entitySources_ok h
  have hentity := (ModelSource.uses_of hm).1
  constructor
  · rw [← hentity]
    exact List.mem_cons_self ..
  · exact List.mem_cons_of_mem _ (List.mem_cons_self ..)

/-- The list class of an entity type stands for this type. -/
theorem entity_of? {l : EntityListSource} (h : EntityListSource.of? p.name entity = some l) :
    l.entity = entity.name := by
  obtain ⟨_, -, rfl⟩ := Option.map_eq_some_iff.mp h
  rfl

end Package

/-- The interface above an entity type is the topmost one or that of a type which gets a model. -/
theorem InterfaceSource.superInterface_of (package : String) (entity : Entity)
    (catalog : Catalog) :
    (InterfaceSource.of package entity catalog).superInterface = top
      ∨ ∃ parent, catalog.isGenerated parent
        ∧ (InterfaceSource.of package entity catalog).superInterface = interfaceName parent := by
  unfold InterfaceSource.of
  cases hparent : entity.parent?.filter catalog.isGenerated with
  | none => exact .inl rfl
  | some parent => exact .inr ⟨parent, (Option.filter_eq_some_iff.mp hparent).2, rfl⟩

/-! ## The sources of a run -/

namespace Generator

variable {σ τ : Type} {g : Generator σ τ} {k : Knowledge} {parts : List (List Source)}

/-- The files of a run that knows `k` and makes `parts` of the entity types. -/
def filesOf (g : Generator σ τ) (k : Knowledge) (parts : List (List Source)) : List String :=
  (k.sources g.package parts).map g.fileOf

theorem mem_filesOf_of_mem {part : List Source} (hpart : part ∈ parts) {file : String}
    (h : file ∈ part.map g.package.layout.file) : file ∈ g.filesOf k parts := by
  obtain ⟨s, hs, rfl⟩ := List.mem_map.mp h
  refine List.mem_map.mpr ⟨s, ?_, rfl⟩
  exact List.mem_append_right _ (List.mem_cons_of_mem _ (List.mem_flatten.mpr ⟨part, hpart, hs⟩))

/-- Every type that gets a model has its model and its interface among the files. -/
theorem files_of_isGenerated (hk : k.Sound g.settings.ignoredLists)
    (hparts : List.Forall₂ (g.Makes k.resolver) k.generated parts) {name : String}
    (h : k.catalog.isGenerated name) :
    g.package.layout.model (modelClass name) ∈ g.filesOf k parts
      ∧ g.package.layout.model (interfaceName name) ∈ g.filesOf k parts := by
  obtain ⟨types, htypes⟩ := hk.catalog
  have hentity : ∃ entity ∈ k.generated, entity.name = name := by
    unfold Knowledge.generated
    rw [htypes] at h ⊢
    exact Catalog.exists_of_isGenerated h
  obtain ⟨entity, hmem, rfl⟩ := hentity
  obtain ⟨part, hpart, fields, hmakes⟩ := exists_right_of_mem hparts hmem
  obtain ⟨hmodel, hinterface⟩ := Package.files_of_entitySources hmakes
  exact ⟨mem_filesOf_of_mem hpart hmodel, mem_filesOf_of_mem hpart hinterface⟩

/-- The enumeration of a list that a logical name leads to is among the files. -/
theorem files_of_logicalName (hk : k.Sound g.settings.ignoredLists) {name identifier : String}
    (h : k.lists.logicalNames.get? name = some identifier) :
    g.package.layout.list identifier ∈ g.filesOf k parts := by
  obtain ⟨roots, values, hlists⟩ := hk.lists
  rw [hlists] at h
  obtain ⟨e, he, rfl⟩ := Lists.exists_enum_of_get? roots values h
  rw [← hlists] at he
  refine List.mem_map.mpr ⟨g.package.listSource e, ?_, rfl⟩
  exact List.mem_append_left _ (List.mem_map_of_mem he)

/-- What the resolver knows of is there. -/
theorem declared_of_backs (hk : k.Sound g.settings.ignoredLists)
    (hparts : List.Forall₂ (g.Makes k.resolver) k.generated parts) {t : TypeExpr}
    (h : k.resolver.Backs t) :
    Declared g.package.layout (g.filesOf k parts) ⟨g.package.name, k.phases.groups⟩ t := by
  -- each kind of type is looked up in a table of its own
  cases t with
  | scalar javaType => exact h
  | model entity => exact (files_of_isGenerated hk hparts h).1
  | generic => trivial
  | list identifier multiple =>
    obtain ⟨name, hname⟩ := h
    exact files_of_logicalName hk hname
  | phase key => exact Phases.count_enumName h
  | collection entity =>
    cases entity with
    | none => trivial
    | some entity => exact (files_of_isGenerated hk hparts h).2

/-- Whatever the sources of one entity type name is there. -/
theorem resolved_of_makes (hk : k.Sound g.settings.ignoredLists)
    (hparts : List.Forall₂ (g.Makes k.resolver) k.generated parts) {part : List Source}
    (hpart : part ∈ parts) :
    ∀ s ∈ part, s.Resolved g.package (g.filesOf k parts) ⟨g.package.name, k.phases.groups⟩ := by
  obtain ⟨entity, -, fields, hmakes⟩ := exists_left_of_mem hparts hpart
  obtain ⟨hmodel, hinterface⟩ := Package.files_of_entitySources hmakes
  obtain ⟨m, hm, rfl⟩ := Package.entitySources_ok hmakes
  obtain ⟨hentity, huses⟩ := ModelSource.uses_of hm
  intro s hs
  rcases List.mem_cons.mp hs with rfl | hs
  · refine ⟨huses.imp fun t ht => declared_of_backs hk hparts ht, ?_⟩
    show g.package.layout.model (interfaceName m.entity) ∈ _
    rw [hentity]
    exact mem_filesOf_of_mem hpart hinterface
  rcases List.mem_cons.mp hs with rfl | hs
  · -- an interface is below that of all entities or below that of a type with a model
    rcases InterfaceSource.superInterface_of g.package.name
        (entity.withFields fields) k.catalog with htop | ⟨parent, hparent, habove⟩
    · exact .inl htop
    · refine .inr ?_
      show g.package.layout.model (InterfaceSource.of _ _ k.catalog).superInterface ∈ _
      rw [habove]
      exact (files_of_isGenerated hk hparts hparent).2
  · obtain ⟨l, hl, rfl⟩ := List.mem_map.mp (Option.toList_map .. ▸ hs)
    show g.package.layout.model (modelClass l.entity) ∈ _
    rw [Package.entity_of? (Option.mem_toList.mp hl)]
    exact mem_filesOf_of_mem hpart hmodel

/-- **No dangling references.** A run that ends well writes one class of phases, and every type that
any of its sources names is written by the same run: models and interfaces, enumerations of lists,
and for each enumeration of phases that is named exactly one of this name. -/
theorem start_resolved {client : σ} {sink : τ} {report : Report} {q : Progress σ τ}
    (h : g.start client sink = (.ok report, q)) :
    report.files = q.written.map g.package.layout.file
      ∧ ∃ phases, .phases phases ∈ q.written
        ∧ ∀ s ∈ q.written, s.Resolved g.package report.files phases := by
  obtain ⟨k, parts, hk, hparts, hwritten, rfl⟩ := start_ok h
  refine ⟨rfl, ⟨g.package.name, k.phases.groups⟩, ?_, ?_⟩
  · rw [hwritten]
    exact List.mem_append_right _ (List.mem_cons_self ..)
  · show ∀ s ∈ q.written, s.Resolved g.package (q.written.map g.fileOf) _
    rw [hwritten]
    intro s hs
    rcases List.mem_append.mp hs with hlist | hs
    · obtain ⟨e, -, rfl⟩ := List.mem_map.mp hlist
      trivial
    rcases List.mem_cons.mp hs with rfl | hs
    · rfl
    · obtain ⟨part, hpart, hs⟩ := List.mem_flatten.mp hs
      exact resolved_of_makes hk hparts hpart s hs

/-! ## A small workspace -/

/-- The answers of a workspace with a list, a phase and three entity types. One has a field of the
list and the second as its parent, the second has a phase and a collection, and the third refers to
the first. -/
def smallAnswer : (call : Call) → call.Answer
  | .signIn .. => ()
  | .signOut => ()
  | .entityTypes =>
    [(Entity.named "defect").addFeature (.subtypeOf "story"),
      (Entity.named "story").addFeature (.rest "stories" ["GET"]), Entity.named "task"]
  | .entityType name => Entity.named name
  | .fields entity =>
    if entity = "defect" then [Field.referring "severity" true [Target.list "severities"]]
    else if entity = "story" then [Field.referring "phase" false [Target.entity "phase"]]
    else if entity = "task" then [Field.referring "found_by" false [Target.entity "defect"]]
    else []
  | .query collection ⟨_, filter⟩ =>
    let node (id name : String) (more : List (String × Json)) : Record :=
      ⟨("activity_level", .ofNat 0) :: ("id", .text id) :: more ++ [("name", .text name)]⟩
    if collection = "phases" then
      [⟨[("entity", .text "story"), ("id", .text "p"), ("name", .text "New")]⟩]
    else match filter with
    | some (.all (.equal _ (.nested _) :: _)) =>
      [node "v" "High" [("list_root", .object [("id", .text "l")])]]
    | _ => [node "l" "Severity" [("logical_name", .text "severities")]]

/-- A generator for the small workspace, with the templates of the program. -/
def small : Generator Unit MemoryFiles where
  settings := { (default : Settings) with package := "sdk" }
  client := fun call s => (.ok (smallAnswer call), s)
  render := fun kind => Engine.standard.render kind.templateName
  sink := MemoryFiles.sink

/-- The run for the small workspace ends well. -/
theorem start_small_ok : ∃ report q, small.start () .empty = (.ok report, q) :=
  Outcome.exists_of_fst_isOk (by decide +kernel)

theorem start_small_resolved :
    ∃ report q, small.start () .empty = (.ok report, q)
      ∧ report.files = q.written.map small.package.layout.file
      ∧ ∃ phases, .phases phases ∈ q.written
        ∧ ∀ s ∈ q.written, s.Resolved small.package report.files phases := by
  obtain ⟨report, q, hstart⟩ := start_small_ok
  exact ⟨report, q, hstart, start_resolved hstart⟩

end Generator

end TypedEntities
