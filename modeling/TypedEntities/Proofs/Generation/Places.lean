import Mathlib
import TypedEntities.Proofs.Generation.Plan
import TypedEntities.Proofs.Generation.References
import TypedEntities.Proofs.Settings.Draft
import TypedEntities.Proofs.Source.Place

/-!
# A run stays in its package

A server may give entity types, lists and phases any names. No path that a run hands to its sink
depends on them but in the last segment, and that one is made of a name that could be the name of a
class. `Source.PlacedAt` says where the path of a source leads; `Generator.start_placed` says so of
every path that any run hands to any sink, if its settings are those of a draft that could be
finished.
-/

namespace TypedEntities

open TypedEntities.Metadata
open Deed (sources)

variable {σ τ : Type}

/-! ## The directory of a package -/

/-- Settings that were finished have a valid package. -/
theorem Draft.isPackage_of_finish {d : Draft} {s : Settings} (h : d.finish = .ok s) :
    Settings.isPackage s.package = true := by
  obtain ⟨s', -, hcheck⟩ := Outcome.bind_eq_ok.mp h
  have hpackage := Settings.isPackage_of_check hcheck
  obtain ⟨-, rfl⟩ := Settings.check_eq_ok hcheck
  exact hpackage

theorem map_intercalate {α β : Type} (f : α → β) (sep : List α) (pieces : List (List α)) :
    (sep.intercalate pieces).map f = (sep.map f).intercalate (pieces.map (List.map f)) := by
  induction pieces with
  | nil => rfl
  | cons piece pieces ih =>
    by_cases hlast : pieces = []
    · subst hlast
      rw [List.intercalate_singleton]
      exact List.intercalate_singleton.symm
    · have hmap : pieces.map (List.map f) ≠ [] := by rwa [ne_eq, List.map_eq_nil_iff]
      rw [List.map_cons, List.intercalate_cons_of_ne_nil hlast,
        List.intercalate_cons_of_ne_nil hmap, List.map_append, List.map_append, ih]

/-- The segments of the directory of a package are the segments of the package. -/
theorem Settings.segments_packagePath {s : Settings} (h : isPackage s.package = true) :
    Path.segments s.packagePath = s.package.toList.splitOn '.' := by
  have hsegment : ∀ segment ∈ s.package.toList.splitOn '.', isPackageSegment segment = true :=
    List.all_eq_true.mp h
  -- a segment has no point, so it stays as it is
  have hsame : ∀ segment ∈ s.package.toList.splitOn '.',
      segment.map (fun c => if c = '.' then '/' else c) = segment := by
    intro segment hmem
    refine (List.map_congr_left fun c hc => if_neg ?_).trans (List.map_id' segment)
    rintro rfl
    exact absurd ((isPackageSegment_iff.mp (hsegment segment hmem)).2.1 _ hc) (by decide)
  have hpath : s.packagePath.toList = ['/'].intercalate (s.package.toList.splitOn '.') := by
    unfold packagePath
    rw [String.toList_ofList]
    have hwhole : ['.'].intercalate (s.package.toList.splitOn '.') = s.package.toList :=
      List.intercalate_splitOn '.'
    rw [← hwhole, map_intercalate, hwhole, List.map_congr_left hsame, List.map_id']
    rfl
  unfold Path.segments
  rw [hpath]
  exact List.splitOn_intercalate '/' (fun segment hmem => slash_notMem (hsegment segment hmem))
    (List.splitOn_ne_nil _ _)

/-! ## Where a path leads -/

/-- The member of a context that names the class of a source. That of the phases has a fixed name. -/
def Source.classKey? : Source → Option String
  | .list _ => some "identifier"
  | .phases _ => none
  | .model _ => some "class_name"
  | .interface _ => some "interface_name"
  | .entityList _ => some "class_name"

/-- **Where the path of a source leads**: through the segments of the package and a folder to a file
that is named after the class. -/
structure Source.PlacedAt (source : Source) (package path : String) : Prop where
  segments : Path.segments path
    = package.toList.splitOn '.' ++ Path.segments source.place.folder
      ++ [(source.place.stem ++ ".java").toList]
  folder : source.place.folder ∈ ["model", "entities", "enums/lists", "enums"]
  package : ∀ segment ∈ package.toList.splitOn '.', Settings.isPackageSegment segment = true
  stem : Settings.isPackageSegment source.place.stem.toList = true
  plain : ∀ segment ∈ Path.segments path, segment ≠ [] ∧ segment ≠ ['.'] ∧ segment ≠ ['.', '.']
  /-- The path is relative and goes down only: each of its parts is a name. -/
  parts : Path.parts path
    = (Path.segments path).map fun segment => .name (String.ofList segment)
  named : ∀ key ∈ source.classKey?, source.context.member? key = some (.text source.place.stem)
  phases : source.classKey? = none → source.place.stem = "Phases"

/-- Every segment of the file of a legal place is a name. -/
theorem Place.ofSegment?_of_mem {s : Settings} {p : Place} (h : Settings.isPackage s.package = true)
    (hlegal : p.IsLegal) : ∀ segment ∈ s.package.toList.splitOn '.' ++ Path.segments p.folder
        ++ [(p.stem ++ ".java").toList],
      Path.Part.ofSegment? segment = some (.name (String.ofList segment)) := by
  have hfolders : ∀ folder ∈ folders, ∀ segment ∈ Path.segments folder,
      Path.Part.ofSegment? segment = some (.name (String.ofList segment)) := by
    decide
  intro segment hmem
  rcases List.mem_append.mp hmem with hmem | hmem
  · rcases List.mem_append.mp hmem with hmem | hmem
    · have hsegment : Settings.isPackageSegment segment = true := List.all_eq_true.mp h _ hmem
      rw [← String.toList_ofList (l := segment)] at hsegment
      have hpart := (Settings.isName_of_isPackageSegment hsegment).part
      rwa [String.toList_ofList] at hpart
    · exact hfolders p.folder hlegal.folder segment hmem
  · obtain rfl := List.mem_singleton.mp hmem
    rw [String.ofList_toList]
    exact hlegal.isName.part

/-- A source with a legal place is placed in a valid package. -/
theorem Source.placedAt {s : Settings} {source : Source} (h : Settings.isPackage s.package = true)
    (hlegal : source.place.IsLegal) :
    source.PlacedAt s.package ((Package.ofSettings s).layout.file source) := by
  have hpackage : ∀ segment ∈ s.package.toList.splitOn '.',
      Settings.isPackageSegment segment = true := List.all_eq_true.mp h
  have hdirectory : Path.segments (Package.ofSettings s).layout.directory
      = s.package.toList.splitOn '.' := Settings.segments_packagePath h
  -- no segment of a package is empty, so its directory does not end with a slash
  have hopen : [] ∉ Path.segments (Package.ofSettings s).layout.directory := by
    rw [hdirectory]
    intro hmem
    cases hpackage [] hmem
  have hsegments := Place.segments_file hlegal hopen
  rw [hdirectory] at hsegments
  have hname := Place.ofSegment?_of_mem h hlegal
  rw [← hsegments] at hname
  rw [Layout.file_eq]
  constructor
  case segments => exact hsegments
  case folder => exact hlegal.folder
  case package => exact hpackage
  case stem => exact hlegal.stem
  case plain =>
    intro segment hmem
    have hpart := hname segment hmem
    refine ⟨?_, ?_, ?_⟩ <;> rintro rfl <;> cases hpart
  case parts => exact Path.parts_eq_map_name hname
  case named =>
    intro key hkey
    cases source <;> cases hkey <;> rfl
  case phases =>
    intro hkey
    cases source with
    | phases => rfl
    | list | model | interface | entityList => cases hkey

/-! ## Whole runs -/

namespace Generator

variable {g : Generator σ τ} {s : σ}

/-- The sources of entity types are no enumerations of lists. -/
theorem ne_list_of_mem_madeSources {r : Resolver} {entity : Entity} {source : Source}
    (h : source ∈ g.madeSources r entity) (list : ListSource) : source ≠ .list list := by
  rintro rfl
  unfold madeSources at h
  cases hmade : g.package.entitySources r entity with
  | error f =>
    rw [hmade] at h
    cases h
  | ok part =>
    rw [hmade] at h
    obtain ⟨m, -, rfl⟩ := Package.entitySources_ok hmade
    rcases List.mem_cons.mp h with heq | h
    · cases heq
    rcases List.mem_cons.mp h with heq | h
    · cases heq
    · obtain ⟨l, -, heq⟩ := Option.map_eq_some_iff.mp (Option.mem_toList.mp h)
      cases heq

/-- Every source of a plan has a legal place, whatever the client tells. -/
theorem isLegal_of_mem_plan {source : Source} (h : source ∈ sources (g.plan s)) :
    source.place.IsLegal := by
  refine Source.isLegal_place fun list heq => ?_
  rw [sources_plan, writePlan, Deed.sources_append, Deed.sources_map_emit, Deed.sources_cons] at h
  rcases List.mem_append.mp h with h | h
  · obtain ⟨enumeration, hmem, rfl⟩ := List.mem_map.mp h
    obtain rfl := Source.list.inj heq
    have hidentifier := List.mem_map_of_mem (f := ListEnum.identifier) hmem
    have hconstant := (Lists.identifiers_build_perm (rootsAt g.client (g.pastTypes s))
      (g.toldValues (g.pastTypes s)) g.settings.ignoredLists).mem_iff.mp hidentifier
    exact Settings.isPackageSegment_of_isConstant (Java.isConstant_of_mem _ _ hconstant)
  rcases List.mem_append.mp h with h | h
  · obtain rfl := List.mem_singleton.mp h
    cases heq
  · -- a source that is written for an entity type was made of it
    obtain ⟨deed, hdeed, hsource⟩ := List.mem_filterMap.mp h
    obtain ⟨entity, -, s', hdeed⟩ := exists_of_mem_each hdeed
    have hmade : source ∈ sources (g.entityPlan (g.told s).resolver s' entity) :=
      List.mem_filterMap.mpr ⟨deed, hdeed, hsource⟩
    rw [sources_entityPlan] at hmade
    exact absurd heq (ne_list_of_mem_madeSources hmade list)

/-- What any run hands to its sink are sources of its plan. -/
theorem start_handed {sink : τ} {result : Except Failure Report} {q : Progress σ τ}
    (h : g.start s sink = (result, q)) :
    ∃ handed, g.Handed (sources (g.plan s)) ⟨s, sink, [], []⟩ q handed := by
  cases result with
  | ok report =>
    obtain ⟨handed, hhanded, -⟩ := carryOut_handed (start_carryOut_ok h).1
    exact ⟨handed, hhanded⟩
  | error f =>
    obtain ⟨handed, hhanded, -⟩ := carryOut_handed (start_carryOut_error h)
    exact ⟨handed, hhanded⟩

/-- **A run stays in its package.** Whatever the client answers, whatever can be rendered and
written, and however the run ends: all that its sink was handed are renderings of sources, each under
a path that leads through the package and a folder to a file named after the class in it. -/
theorem start_placed {d : Draft} (hd : d.finish = .ok g.settings) (s : σ) (sink : τ) :
    ∃ handed, g.Handed (sources (g.plan s)) ⟨s, sink, [], []⟩ (g.start s sink).2 handed
      ∧ ∀ h ∈ handed, h.1.PlacedAt g.settings.package (g.fileOf h.1) := by
  obtain ⟨handed, hhanded⟩ := start_handed (show g.start s sink = (_, _) from rfl)
  refine ⟨handed, hhanded, fun h hmem => ?_⟩
  refine Source.placedAt (Draft.isPackage_of_finish hd) ?_
  exact isLegal_of_mem_plan (hhanded.inOrder.subset (List.mem_map_of_mem hmem))

/-! ## A workspace with strange names -/

/-- The answers of a workspace whose names could be mistaken for paths. -/
def strangeAnswer : (call : Call) → call.Answer
  | .signIn .. => ()
  | .signOut => ()
  | .entityTypes => [Entity.named "../up", (Entity.named "a/b\x00").addFeature (.rest "ab" ["GET"])]
  | .entityType name => Entity.named name
  | .fields _ => []
  | .query collection _ =>
    if collection = "phases" then
      [⟨[("entity", .text "/etc"), ("id", .text "p"), ("name", .text "..")]⟩]
    else [⟨[("activity_level", .ofNat 0), ("id", .text "l"), ("name", .text "/../中")]⟩]

/-- The settings of a draft in which all is set that has to be. -/
def strange : Generator Unit MemoryFiles where
  settings :=
    (Draft.serverless.setServer "https://octane.example.com").finish.toOption.getD default
  client := fun call s => (.ok (strangeAnswer call), s)
  render := fun kind _ => .ok kind.templateName
  sink := MemoryFiles.sink

theorem start_strange_placed :
    (Draft.serverless.setServer "https://octane.example.com").finish = .ok strange.settings
      ∧ (strange.start () .empty).1.isOk = true
      ∧ ∃ handed,
        strange.Handed (sources (strange.plan ())) ⟨(), .empty, [], []⟩ (strange.start () .empty).2
          handed
        ∧ ∀ h ∈ handed, h.1.PlacedAt strange.settings.package (strange.fileOf h.1) := by
  have hfinish : (Draft.serverless.setServer "https://octane.example.com").finish
      = .ok strange.settings := by
    obtain ⟨settings, hsettings⟩ : ∃ settings,
        (Draft.serverless.setServer "https://octane.example.com").finish = .ok settings :=
      Outcome.exists_of_isOk (by decide +kernel)
    unfold strange
    rw [hsettings]
    rfl
  exact ⟨hfinish, by decide +kernel, start_placed hfinish () .empty⟩

end Generator

end TypedEntities
