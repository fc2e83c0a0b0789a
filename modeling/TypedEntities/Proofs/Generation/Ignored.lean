import Mathlib
import TypedEntities.Proofs.Generation.References
import TypedEntities.Proofs.Generation.Steady
import TypedEntities.Proofs.Source.Needs

/-!
# Lists that are left out

Leaving out the lists of some roots can break a run in one way only: a field needs a list that no
root is left for. `Generator.listNeeds` are the needs of the fields of all entity types with models,
in the order in which a run comes to them. A run that went well with all lists is compared with a run
that leaves some out. Nothing that the second one reads is new to the first, and the sources of
entity types differ only in the identifiers of lists; so the second run fails at the first need that
is not met, or not at all: `Generator.start_ignoring`.
-/

namespace TypedEntities.Generator

open TypedEntities.Metadata

variable {σ τ : Type} {g : Generator σ τ} {s : σ}

/-! ## Needs -/

/-- The same generator, but for the roots whose lists are left out. -/
def ignoring (g : Generator σ τ) (ignored : TextSet) : Generator σ τ :=
  { g with settings := { g.settings with ignoredLists := ignored } }

/-- The lists that the fields of entity types with models need, by the names of types and fields. -/
def listNeeds (g : Generator σ τ) (s : σ) : List ListNeed :=
  (g.known s).generated.flatMap fun entity =>
    (g.known s).resolver.needs (g.toldEntity (g.inMain s) entity)

/-- Of the roots that are told of, every one with a logical name is removed or to be ignored. -/
def LeftOut (g : Generator σ τ) (s : σ) (ignored : TextSet) (logicalName : String) : Prop :=
  ∀ root ∈ rootsAt g.client (g.inMain s), root.activity ≠ .removed →
    root.logicalName = some logicalName → ignored.contains root.id = true

instance (g : Generator σ τ) (s : σ) (ignored : TextSet) (logicalName : String) :
    Decidable (g.LeftOut s ignored logicalName) :=
  inferInstanceAs (Decidable (∀ root ∈ rootsAt g.client (g.inMain s), root.activity ≠ .removed →
    root.logicalName = some logicalName → ignored.contains root.id = true))

/-- A need is lost if its list is left out. -/
theorem isLost_iff {ignored : TextSet} {need : ListNeed} :
    need.isLost ((g.ignoring ignored).known s).lists.logicalNames = true
      ↔ g.LeftOut s ignored need.logicalName := by
  rw [ListNeed.isLost, Option.isNone_iff_eq_none]
  exact Lists.get?_logicalNames_build_eq_none_iff _ _

/-- What is told of an entity type is told under its name. -/
theorem toldEntity_name (s : σ) (entity : Entity) : (g.toldEntity s entity).name = entity.name := by
  unfold toldEntity
  split <;> rfl

/-- Needs are listed by the names of entity types, and those of one type by the names of fields. -/
theorem pairwise_listNeeds (g : Generator σ τ) (s : σ) :
    (g.listNeeds s).Pairwise fun a b =>
      a.entity < b.entity ∨ a.entity = b.entity ∧ a.field ≤ b.field := by
  -- a need of an entity type names the type
  have hentity : ∀ (entity : Entity), ∀ need ∈ (g.known s).resolver.needs entity,
      need.entity = entity.name := by
    intro entity need hneed
    obtain ⟨field, -, hfield⟩ := List.mem_filterMap.mp hneed
    obtain ⟨name, -, rfl⟩ := Option.map_eq_some_iff.mp hfield
    rfl
  have hnames : (g.known s).generated.Pairwise fun a b => a.name < b.name := by
    refine List.Pairwise.filter _ (List.pairwise_map.mp ?_)
    show ((Catalog.ofList _).entities.values.map Entity.name).Pairwise _
    rw [← Catalog.names_ofList]
    exact (g.known s).catalog.entities.ascending
  refine List.pairwise_flatMap.mpr ⟨fun entity _ => ?_, hnames.imp fun {a b} hab x hx y hy => ?_⟩
  · refine List.pairwise_filterMap.mpr ((pairwise_mergeSort_key Field.name _).imp ?_)
    intro a b hab x hx y hy
    obtain ⟨-, -, rfl⟩ := Option.map_eq_some_iff.mp hx
    obtain ⟨-, -, rfl⟩ := Option.map_eq_some_iff.mp hy
    exact .inr ⟨rfl, hab⟩
  · left
    rw [hentity _ x hx, hentity _ y hy, toldEntity_name, toldEntity_name]
    exact hab

/-! ## What both runs have in common -/

section Same

variable (g) (ignored : TextSet)

theorem inMain_ignoring : (g.ignoring ignored).inMain s = g.inMain s := rfl

theorem toldCatalog_ignoring : (g.ignoring ignored).toldCatalog s = g.toldCatalog s := rfl

theorem goes_ignoring : (g.ignoring ignored).Goes = g.Goes := rfl

theorem entityPlan_ignoring : (g.ignoring ignored).entityPlan = g.entityPlan := rfl

variable (s)

/-- To ignore lists changes which lists are known and nothing else that references need. -/
theorem known_ignoring_resolver :
    ((g.ignoring ignored).known s).resolver
      = (g.known s).resolver.withLists ((g.ignoring ignored).known s).lists.logicalNames := rfl

/-- The same entity types get models. -/
theorem known_ignoring_generated :
    ((g.ignoring ignored).known s).generated = (g.known s).generated := by
  unfold Knowledge.generated
  rw [known_catalog, known_catalog]
  rfl

/-- Either run reports of the same entity types and phases. -/
theorem report_ignoring (files files' : List String) :
    (((g.ignoring ignored).known s).report files).entities = ((g.known s).report files').entities
      ∧ (((g.ignoring ignored).known s).report files).skipped = ((g.known s).report files').skipped
      ∧ (((g.ignoring ignored).known s).report files).phaseGroups
        = ((g.known s).report files').phaseGroups := by
  unfold Knowledge.report
  simp only [known_catalog, known_phases, toldCatalog_ignoring, inMain_ignoring]
  exact ⟨trivial, trivial, rfl⟩

end Same

/-! ## Deeds of the second run -/

/-- Reading without some of the lists is reading less. -/
theorem goes_readPlanAt {s₀ : σ} (h : ∀ deed ∈ (g.ignoring .empty).readPlanAt s₀, g.Goes s₀ deed)
    (ignored : TextSet) : ∀ deed ∈ (g.ignoring ignored).readPlanAt s₀, g.Goes s₀ deed := by
  intro deed hdeed
  refine h deed ?_
  simp only [readPlanAt, List.mem_append, List.mem_flatMap] at hdeed ⊢
  rcases hdeed with (hroots | ⟨root, hroot, hvalues⟩) | hphases
  · exact .inl (.inl hroots)
  · refine .inl (.inr ⟨root, ?_, hvalues⟩)
    exact List.mem_filter.mpr ⟨(List.mem_filter.mp hroot).1, rfl⟩
  · exact .inr hphases

/-- An entity type with all its needs met still goes. -/
theorem goes_entityPlan {s₀ : σ} {r : Resolver} {all lists : Table String String} {entity : Entity}
    (h : ∀ deed ∈ g.entityPlan (r.withLists all) s₀ entity, g.Goes s₀ deed)
    (hmet : (r.needs (g.toldEntity s₀ entity)).find? (ListNeed.isLost lists) = none) :
    ∀ deed ∈ g.entityPlan (r.withLists lists) s₀ entity, g.Goes s₀ deed := by
  obtain ⟨hfields, hrest⟩ := List.forall_mem_append.mp h
  obtain ⟨⟨part, hpart⟩, -⟩ := List.forall_mem_cons.mp hrest
  refine List.forall_mem_append.mpr ⟨hfields, List.forall_mem_cons.mpr ⟨?_, fun deed hdeed => ?_⟩⟩
  · exact Package.exists_entitySources (r := r.withLists all) hpart hmet
  · obtain ⟨source, -, rfl⟩ := List.mem_map.mp hdeed
    trivial

/-! ## The two runs -/

section Runs

variable {sink : τ} {report : Report} {q : Progress σ τ}

/-- What is known of the first run: it came to the session, and what it read and did for each entity
type can be done. -/
theorem start_all (hc : g.client.Steady)
    (h : (g.ignoring .empty).start s sink = (.ok report, q)) :
    (∃ m, g.carryOut g.opening ⟨s, sink, [], []⟩ = (.ok (), m)
        ∧ g.client.Agrees (g.inMain s) m.client)
      ∧ (∀ deed ∈ (g.ignoring .empty).readPlanAt (g.inMain s), g.Goes (g.inMain s) deed)
      ∧ (∃ all, ∀ entity ∈ (g.known s).generated,
        ∀ deed ∈ g.entityPlan ((g.known s).resolver.withLists all) (g.inMain s) entity,
          g.Goes (g.inMain s) deed)
      ∧ ∃ files, report = ((g.ignoring .empty).known s).report files := by
  obtain ⟨hopening, hgoes, hreport⟩ := start_goes (g := g.ignoring .empty) hc h
  rw [planAt, goes_ignoring, List.forall_mem_append, List.forall_mem_append] at hgoes
  obtain ⟨⟨hread, -⟩, hentities⟩ := hgoes
  refine ⟨hopening, hread, ⟨((g.ignoring .empty).known s).lists.logicalNames, ?_⟩, hreport⟩
  intro entity hentity deed hdeed
  rw [← known_ignoring_generated g s .empty] at hentity
  rw [← known_ignoring_resolver g s .empty] at hdeed
  exact hentities deed (List.mem_flatMap.mpr ⟨entity, hentity, hdeed⟩)

/-- An entity type of the second run goes if all its needs are met. -/
theorem goes_of_met {all : Table String String} {ignored : TextSet} {entity : Entity}
    (h : ∀ deed ∈ g.entityPlan ((g.known s).resolver.withLists all) (g.inMain s) entity,
      g.Goes (g.inMain s) deed)
    (hmet : ((g.known s).resolver.needs (g.toldEntity (g.inMain s) entity)).find?
      (ListNeed.isLost ((g.ignoring ignored).known s).lists.logicalNames) = none) :
    ∀ deed ∈ (g.ignoring ignored).entityPlan ((g.ignoring ignored).known s).resolver (g.inMain s)
      entity, (g.ignoring ignored).Goes (g.inMain s) deed := by
  rw [goes_ignoring, entityPlan_ignoring, known_ignoring_resolver]
  exact goes_entityPlan h hmet

/-- If all needs are met the second run goes well. -/
theorem start_ignoring_ok (hc : g.client.Steady) (hg : g.Reliable)
    (h : (g.ignoring .empty).start s sink = (.ok report, q)) {ignored : TextSet}
    (hmet : (g.listNeeds s).find?
      (ListNeed.isLost ((g.ignoring ignored).known s).lists.logicalNames) = none) :
    ∃ files, ((g.ignoring ignored).start s sink).1
      = .ok (((g.ignoring ignored).known s).report files) := by
  obtain ⟨⟨m, hopening, hagrees⟩, hread, ⟨all, hentities⟩, -⟩ := start_all hc h
  rw [listNeeds, List.find?_flatMap, List.findSome?_eq_none_iff] at hmet
  refine start_ok_of_goes (g := g.ignoring ignored) hc ⟨hg.renders, hg.takes⟩ hopening hagrees ?_
  rw [planAt, List.forall_mem_append, List.forall_mem_append]
  refine ⟨⟨goes_readPlanAt hread ignored, goes_enumPlan _ _⟩, fun deed hdeed => ?_⟩
  obtain ⟨entity, hentity, hdeed⟩ := List.mem_flatMap.mp hdeed
  have hentity' : entity ∈ (g.known s).generated := by
    rw [← known_ignoring_generated g s ignored]
    exact hentity
  exact goes_of_met (hentities entity hentity') (hmet entity hentity') deed hdeed

/-- The second run fails at the first need that is lost. -/
theorem start_ignoring_error (hc : g.client.Steady) (hg : g.Reliable)
    (h : (g.ignoring .empty).start s sink = (.ok report, q)) {ignored : TextSet} {need : ListNeed}
    (hlost : (g.listNeeds s).find?
      (ListNeed.isLost ((g.ignoring ignored).known s).lists.logicalNames) = some need) :
    ((g.ignoring ignored).start s sink).1 = .error need.failure := by
  obtain ⟨⟨m, hopening, hagrees⟩, hread, ⟨all, hentities⟩, -⟩ := start_all hc h
  -- the entity types before the one with the need still go, and so do its fields
  rw [listNeeds, List.find?_flatMap, List.findSome?_eq_some_iff] at hlost
  obtain ⟨before, entity, after, hgenerated, hneed, hbefore⟩ := hlost
  have hmem : ∀ e ∈ before ++ [entity], e ∈ (g.known s).generated := by
    intro e he
    rw [hgenerated, List.append_cons]
    exact List.mem_append_left _ he
  obtain ⟨hfields, hrest⟩ := List.forall_mem_append.mp (hentities entity (hmem entity (by simp)))
  obtain ⟨⟨part, hpart⟩, -⟩ := List.forall_mem_cons.mp hrest
  refine start_eq_error (g := g.ignoring ignored) hc ⟨hg.renders, hg.takes⟩ hopening hagrees
    ((known_ignoring_generated g s ignored).trans hgenerated) (goes_readPlanAt hread ignored)
    (fun e he => ?_) hfields ?_
  · exact goes_of_met (hentities e (hmem e (List.mem_append_left _ he))) (hbefore e he)
  · rw [known_ignoring_resolver]
    exact Package.entitySources_eq_error (r := (g.known s).resolver.withLists all) hpart hneed

/-- The second run goes well and all needs are met, or it fails at the first that is not. -/
theorem start_ignoring_cases (hc : g.client.Steady) (hg : g.Reliable)
    (h : (g.ignoring .empty).start s sink = (.ok report, q)) (ignored : TextSet) :
    (∃ files, ((g.ignoring ignored).start s sink).1
        = .ok (((g.ignoring ignored).known s).report files)
        ∧ ∀ need ∈ g.listNeeds s, ¬ g.LeftOut s ignored need.logicalName)
      ∨ ∃ before need after, g.listNeeds s = before ++ need :: after
        ∧ g.LeftOut s ignored need.logicalName
        ∧ (∀ n ∈ before, ¬ g.LeftOut s ignored n.logicalName)
        ∧ ((g.ignoring ignored).start s sink).1 = .error need.failure := by
  cases hfirst : (g.listNeeds s).find?
    (ListNeed.isLost ((g.ignoring ignored).known s).lists.logicalNames) with
  | none =>
    obtain ⟨files, hstart⟩ := start_ignoring_ok hc hg h hfirst
    refine .inl ⟨files, hstart, fun need hneed hleft => ?_⟩
    exact List.find?_eq_none.mp hfirst need hneed (isLost_iff.mpr hleft)
  | some need =>
    obtain ⟨hlost, before, after, hsplit, hbefore⟩ := List.find?_eq_some_iff_append.mp hfirst
    refine .inr ⟨before, need, after, hsplit, isLost_iff.mp hlost, fun n hn hleft => ?_,
      start_ignoring_error hc hg h hfirst⟩
    have := hbefore n hn
    rw [isLost_iff.mpr hleft] at this
    cases this

end Runs

/-! ## The main theorem -/

/-- What a field has to be to need a list. -/
theorem mem_listNeeds_iff {need : ListNeed} :
    need ∈ g.listNeeds s
      ↔ ∃ entity ∈ (g.known s).generated, ∃ field ∈ (g.toldEntity (g.inMain s) entity).fields,
        field.isReference = true ∧ (g.known s).resolver.ownsPhase entity.name field = false
          ∧ entity.name ≠ listNodeType
          ∧ (∃ first rest, field.targets = first :: rest ∧ first.entityType = listNodeType
            ∧ first.logicalName = some need.logicalName)
          ∧ need.entity = entity.name ∧ need.field = field.name := by
  simp only [listNeeds, Resolver.needs, List.mem_flatMap, List.mem_filterMap,
    Option.map_eq_some_iff, Resolver.neededList?_eq_some_iff, toldEntity_name, sortFields,
    List.mem_mergeSort]
  constructor
  · rintro ⟨entity, hentity, field, hfield, name, ⟨hreference, hphase, howner, hlist⟩, rfl⟩
    exact ⟨entity, hentity, field, hfield, hreference, hphase, howner, hlist, rfl, rfl⟩
  · rintro ⟨entity, hentity, field, hfield, hreference, hphase, howner, hlist, hname, hfieldName⟩
    refine ⟨entity, hentity, field, hfield, need.logicalName,
      ⟨hreference, hphase, howner, hlist⟩, ?_⟩
    rw [← hname, ← hfieldName]

/-- How a run ends that leaves lists out, where the run that leaves out none has ended with a
report. -/
structure EndsByNeeds (g : Generator σ τ) (s : σ) (sink : τ) (ignored : TextSet) (report : Report) :
    Prop where
  /-- A need is a reference field, other than a phase, of an entity type with a model, other than
  list nodes, whose first target is a list with a logical name. -/
  needs : ∀ need, need ∈ g.listNeeds s
    ↔ ∃ entity ∈ (g.known s).generated, ∃ field ∈ (g.toldEntity (g.inMain s) entity).fields,
      field.isReference = true ∧ (g.known s).resolver.ownsPhase entity.name field = false
        ∧ entity.name ≠ listNodeType
        ∧ (∃ first rest, field.targets = first :: rest ∧ first.entityType = listNodeType
          ∧ first.logicalName = some need.logicalName)
        ∧ need.entity = entity.name ∧ need.field = field.name
  /-- Needs are listed by the names of entity types, and those of one type by the names of fields. -/
  ordered : (g.listNeeds s).Pairwise fun a b =>
    a.entity < b.entity ∨ a.entity = b.entity ∧ a.field ≤ b.field
  /-- The run fails if a list that is needed is left out, and only then. -/
  fails_iff : (∃ f, ((g.ignoring ignored).start s sink).1 = .error f)
    ↔ ∃ need ∈ g.listNeeds s, g.LeftOut s ignored need.logicalName
  /-- The failure tells of the first need that is not met. -/
  failure : ∀ f, ((g.ignoring ignored).start s sink).1 = .error f →
    ∃ before need after, g.listNeeds s = before ++ need :: after
      ∧ g.LeftOut s ignored need.logicalName
      ∧ (∀ n ∈ before, ¬ g.LeftOut s ignored n.logicalName)
      ∧ f = .unknownList need.entity need.field need.logicalName
  /-- If the run ends well it has the same entity types and phases. -/
  report : ∀ report', ((g.ignoring ignored).start s sink).1 = .ok report' →
    report'.entities = report.entities ∧ report'.skipped = report.skipped
      ∧ report'.phaseGroups = report.phaseGroups

/-- **Leaving out lists breaks a run exactly where a field needs one of them.** Take a client that
keeps to its answers within a session, the templates of the program, a sink that takes every file,
and a run that ends well with all lists. The run that leaves out the lists of some roots fails if and
only if a field of an entity type with a model needs a list by a logical name for which no root is
left, and it fails at the first such field. Otherwise it ends well, with the same entity types and
phases. -/
theorem start_ignoring (hc : g.client.Steady)
    (hrender : g.render = fun kind => Engine.standard.render kind.templateName)
    (htakes : ∀ file text sink, (g.sink file text sink).1 = .ok ()) {sink : τ} {report : Report}
    {q : Progress σ τ} (h : (g.ignoring .empty).start s sink = (.ok report, q))
    (ignored : TextSet) : g.EndsByNeeds s sink ignored report := by
  have hg : g.Reliable := reliable_of_standard hrender htakes
  constructor
  case needs => exact fun _ => mem_listNeeds_iff
  case ordered => exact pairwise_listNeeds g s
  case fails_iff =>
    rcases start_ignoring_cases hc hg h ignored with
      ⟨files, hstart, hmet⟩ | ⟨before, need, after, hsplit, hleft, -, hstart⟩
    · rw [hstart]
      constructor
      · rintro ⟨f, hf⟩
        cases hf
      · rintro ⟨need, hneed, hleft⟩
        exact absurd hleft (hmet need hneed)
    · rw [hstart]
      refine iff_of_true ⟨_, rfl⟩ ⟨need, ?_, hleft⟩
      rw [hsplit]
      exact List.mem_append_right _ (List.mem_cons_self ..)
  case failure =>
    rintro f hf
    rcases start_ignoring_cases hc hg h ignored with
      ⟨files, hstart, -⟩ | ⟨before, need, after, hsplit, hleft, hbefore, hstart⟩
    · cases hstart.symm.trans hf
    · exact ⟨before, need, after, hsplit, hleft, hbefore, Except.error.inj (hf.symm.trans hstart)⟩
  case report =>
    intro report' hok
    obtain ⟨-, -, -, files₀, rfl⟩ := start_all hc h
    rcases start_ignoring_cases hc hg h ignored with
      ⟨files, hstart, -⟩ | ⟨before, need, after, -, -, -, hstart⟩
    · obtain rfl := Except.ok.inj (hok.symm.trans hstart)
      obtain ⟨hentities, hskipped, hphases⟩ := report_ignoring g s ignored files files
      obtain ⟨hentities₀, hskipped₀, hphases₀⟩ := report_ignoring g s .empty files₀ files
      exact ⟨hentities.trans hentities₀.symm, hskipped.trans hskipped₀.symm,
        hphases.trans hphases₀.symm⟩
    · cases hstart.symm.trans hok

theorem start_small_ignoring :
    ∃ report q, (small.ignoring .empty).start () .empty = (.ok report, q)
      ∧ small.EndsByNeeds () .empty (TextSet.ofList ["l"]) report
      ∧ ∃ need ∈ small.listNeeds (),
        small.LeftOut () (TextSet.ofList ["l"]) need.logicalName := by
  -- the small workspace is read without any lists to ignore
  have hsmall : small.ignoring .empty = small := rfl
  obtain ⟨report, q, hstart⟩ := start_small_ok
  rw [← hsmall] at hstart
  refine ⟨report, q, hstart, ?_, ⟨"defect", "severity", "severities"⟩, ?_, ?_⟩
  · exact start_ignoring (fun _ _ _ _ _ => rfl) rfl (fun _ _ _ => rfl) hstart _
  · decide +kernel
  · decide +kernel

end TypedEntities.Generator
