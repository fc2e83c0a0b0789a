import Mathlib
import TypedEntities.Proofs.Generation.Files
import TypedEntities.Proofs.Generation.Protocol

/-!
# What a report accounts for

The report of a run counts and lists what the run did, in loops of its own over what was read. Here
it is told from the answers of the server alone: `Fetched` says what a client has answered in the
course of a run, and `Accounted` what the report says of these answers. The payoff is
`start_accounted`.
-/

namespace TypedEntities

open TypedEntities.Metadata
open TypedEntities.Java (typeName)
open Deed (calls sources)

variable {σ τ α : Type}

namespace Generator

variable {g : Generator σ τ} {s : σ} {sink : τ} {report : Report} {q : Progress σ τ}

/-! ## What was fetched -/

/-- What a client has answered: in the first session `root`, and in the second one the entity types,
the roots of lists and the phases. -/
structure Fetched (g : Generator σ τ) (s : σ) (root : Entity) (types : List Entity)
    (roots : List ListNode) (phases : List Phase) : Prop where
  root : ∃ entity fields,
    (g.client (.entityType workItemRoot) (g.client.after s [g.previewSignIn])).1 = .ok entity
      ∧ (g.client (.fields workItemRoot)
          (g.client.after s [g.previewSignIn, .entityType workItemRoot])).1 = .ok fields
      ∧ root = entity.withFields fields
  types : (g.client .entityTypes (g.inMain s)).1 = .ok types
  roots : answeredNodes g.client activeRoots (g.pastTypes s) = .ok roots
  phases : answered g.client "phases" phaseSelection Record.phase
    (g.client.after (g.pastTypes s) (calls (g.listsPlan (g.pastTypes s)))) = .ok phases

/-- A run that ends well got an answer to every question of its script. -/
theorem script_answered (h : g.start s sink = (.ok report, q)) {before after : List Call}
    {call : Call} (hsplit : g.script s = before ++ call :: after) (hcall : call.isSession = false) :
    (g.client call (g.client.after s before)).1
      = .ok (g.client.tells (g.client.after s before) call) := by
  have hne : call ≠ .signOut := by
    rintro rfl
    cases hcall
  exact Client.ok_tells (start_answered h ((start_calls_eq_script h).trans hsplit) hne (.inr rfl))

/-- What was answered and can be read is what was told. -/
theorem answered_of_ok {c : Client σ} {collection : String} {selection : Selection}
    {read : Record → Except Failure α} {s : σ}
    (hanswer : (c (.query collection selection) s).1 = .ok (c.tells s (.query collection selection)))
    (hread : ∃ l, (c.tells s (.query collection selection)).mapM read = .ok l) :
    answered c collection selection read s
      = .ok ((answered c collection selection read s).toOption.getD []) := by
  obtain ⟨l, hl⟩ := hread
  have hok : answered c collection selection read s = .ok l := by
    unfold answered
    rw [hanswer]
    exact hl
  rw [hok]
  rfl

/-- A run that ends well has fetched what the client tells. -/
theorem start_fetched (h : g.start s sink = (.ok report, q)) :
    g.Fetched s (g.toldRoot s) (g.toldTypes s) (rootsAt g.client (g.pastTypes s))
      (phasesAt g.client
        (g.client.after (g.pastTypes s) (calls (g.listsPlan (g.pastTypes s))))) := by
  obtain ⟨hplan, -⟩ := start_carryOut_ok h
  -- the calls before the second session asks its first question
  let opening : List Call := g.previewSignIn :: rootQuestions ++ [.signOut, g.mainSignIn]
  constructor
  case root =>
    have hentity := script_answered h
      (show g.script s = [g.previewSignIn] ++ .entityType workItemRoot :: _ from rfl) rfl
    have hfields := script_answered h
      (show g.script s
        = [g.previewSignIn, .entityType workItemRoot] ++ .fields workItemRoot :: _ from rfl) rfl
    exact ⟨_, _, hentity, hfields, rfl⟩
  case types =>
    exact script_answered h (show g.script s = opening ++ .entityTypes :: _ from rfl) rfl
  case roots =>
    have hrecords := script_answered h
      (show g.script s = (opening ++ [.entityTypes]) ++ nodesCall activeRoots :: _ from rfl) rfl
    have hmem : .readNodes (g.client.tells (g.pastTypes s) (nodesCall activeRoots)) ∈ g.plan s := by
      simp [plan, catalogPlan, listsPlan, nodesPlan]
    obtain ⟨m, m', hread⟩ := perform_ok_of_mem hplan hmem
    obtain ⟨l, hl, -⟩ := Outcome.map_eq_ok.mp (congrArg Prod.fst hread)
    exact answered_of_ok hrecords ⟨l, hl⟩
  case phases =>
    have hsplit : g.script s
        = ((opening ++ [.entityTypes]) ++ calls (g.listsPlan (g.pastTypes s)))
          ++ phasesCall :: ((g.asked s).map .fields ++ [.signOut]) := by
      simp [script, questions, opening, calls_listsPlan]
    have hrecords := script_answered h hsplit rfl
    rw [Client.after_append] at hrecords
    have hmem : .readPhases (g.client.tells
        (g.client.after (g.pastTypes s) (calls (g.listsPlan (g.pastTypes s)))) phasesCall)
          ∈ g.plan s := by
      simp [plan, catalogPlan, phasesPlan]
    obtain ⟨m, m', hread⟩ := perform_ok_of_mem hplan hmem
    obtain ⟨l, hl, -⟩ := Outcome.map_eq_ok.mp (congrArg Prod.fst hread)
    exact answered_of_ok hrecords ⟨l, hl⟩

/-! ## The catalog -/

/-- The descriptor that counts for a name: for `work_item_root` the one of the technical preview, for
any other type the last one that was listed. -/
def descriptor? (root : Entity) (types : List Entity) (name : String) : Option Entity :=
  if name = workItemRoot then some root else types.reverse.find? fun e => e.name = name

theorem get?_catalog {root : Entity} (hroot : root.name = workItemRoot) (types : List Entity)
    (name : String) :
    (Catalog.ofList (types.filter (fun e => e.name ≠ workItemRoot) ++ [root])).get? name
      = descriptor? root types name := by
  rw [Catalog.get?_ofList, List.reverse_append, List.reverse_singleton, List.singleton_append,
    List.find?_cons, hroot]
  unfold descriptor?
  by_cases hname : workItemRoot = name
  · rw [if_pos hname.symm, decide_eq_true hname]
  · rw [if_neg (Ne.symm hname), decide_eq_false hname, ← List.filter_reverse, List.find?_filter]
    show List.find? _ types.reverse = List.find? _ types.reverse
    congr 1
    funext e
    by_cases he : e.name = name
    · simp [he, Ne.symm hname]
    · simp [he]

theorem mem_names_catalog {root : Entity} (hroot : root.name = workItemRoot) {types : List Entity}
    {name : String} :
    name ∈ (Catalog.ofList (types.filter (fun e => e.name ≠ workItemRoot) ++ [root])).names
      ↔ name ∈ types.map Entity.name ∨ name = workItemRoot := by
  rw [Catalog.mem_names_ofList, List.map_append, List.mem_append, List.map_singleton,
    List.mem_singleton, hroot]
  by_cases hname : name = workItemRoot
  · simp [hname]
  · simp only [hname, or_false, List.mem_map, List.mem_filter, decide_not, Bool.not_eq_true',
      decide_eq_false_iff_not]
    constructor
    · rintro ⟨e, ⟨he, -⟩, rfl⟩
      exact ⟨e, he, rfl⟩
    · rintro ⟨e, he, rfl⟩
      exact ⟨e, ⟨he, hname⟩, rfl⟩

/-! ## The sources of entity types -/

/-- The sources of an entity type with its fields as they are told of in some state. -/
def MakesTold (g : Generator σ τ) (r : Resolver) (entity : Entity) (part : List Source) : Prop :=
  ∃ s, g.package.entitySources r (g.toldEntity s entity) = .ok part

theorem makes_of_makesTold {r : Resolver} {entity : Entity} {part : List Source}
    (h : g.MakesTold r entity part) : g.Makes r entity part := by
  obtain ⟨s, hs⟩ := h
  unfold toldEntity at hs
  split at hs
  next => exact ⟨entity.fields, hs⟩
  next => exact ⟨_, hs⟩

/-- Entity types whose deeds were all done have given their sources. -/
theorem sources_each_entityPlan {r : Resolver} {entities : List Entity}
    (h : ∀ deed ∈ g.each (g.entityPlan r) s entities, ∃ m m', g.perform deed m = (.ok (), m')) :
    ∃ parts, List.Forall₂ (g.MakesTold r) entities parts
      ∧ sources (g.each (g.entityPlan r) s entities) = parts.flatten := by
  induction entities generalizing s with
  | nil => exact ⟨[], .nil, rfl⟩
  | cons e entities ih =>
    obtain ⟨parts, hparts, hsources⟩ := ih fun deed hdeed => h deed (List.mem_append_right _ hdeed)
    have hmem : .make r (g.toldEntity s e) ∈ g.entityPlan r s e :=
      List.mem_append_right _ (List.mem_cons_self ..)
    obtain ⟨m, m', hmake⟩ := h _ (List.mem_append_left _ hmem)
    obtain ⟨part, hpart, -⟩ := Outcome.map_eq_ok.mp (congrArg Prod.fst hmake)
    refine ⟨part :: parts, .cons ⟨s, hpart⟩ hparts, ?_⟩
    rw [each, Deed.sources_append, hsources, sources_entityPlan, madeSources, hpart]
    rfl

/-- A run that ends well has written the sources of what the client told. -/
theorem start_sources (h : g.start s sink = (.ok report, q)) :
    ∃ parts, List.Forall₂ (g.MakesTold (g.told s).resolver) (g.told s).generated parts
      ∧ q.written = (g.told s).sources g.package parts
      ∧ report = (g.told s).report (q.written.map g.fileOf) := by
  obtain ⟨hplan, hreport⟩ := start_carryOut_ok h
  have hwritten := start_written h
  have hdone : ∀ deed ∈ g.each (g.entityPlan (g.told s).resolver)
      (g.pastPhases (g.pastTypes s)) (g.told s).generated,
      ∃ m m', g.perform deed m = (.ok (), m') := by
    intro deed hdeed
    refine perform_ok_of_mem hplan ?_
    simp [plan, catalogPlan, writePlan, told] at hdeed ⊢
    tauto
  obtain ⟨parts, hparts, hsources⟩ := sources_each_entityPlan hdone
  refine ⟨parts, hparts, ?_, by rw [hwritten]; exact hreport⟩
  rw [hwritten, sources_plan, writePlan, Deed.sources_append, Deed.sources_map_emit,
    Deed.sources_cons, hsources]
  rfl

end Generator

/-! ## The sources of one entity type -/

/-- The entity type that a source stands for. -/
def Source.entity? : Source → Option String
  | .list _ => none
  | .phases _ => none
  | .model m => some m.entity
  | .interface i => some i.entity
  | .entityList l => some l.entity

theorem Package.entity?_of_mem {p : Package} {r : Resolver} {entity : Entity} {part : List Source}
    (h : p.entitySources r entity = .ok part) : ∀ source ∈ part, source.entity? = some entity.name := by
  obtain ⟨m, hm, rfl⟩ := entitySources_ok h
  intro source hsource
  rcases List.mem_cons.mp hsource with rfl | hsource
  · exact congrArg some (ModelSource.uses_of hm).1
  rcases List.mem_cons.mp hsource with rfl | hsource
  · rfl
  · obtain ⟨l, hl, rfl⟩ := List.mem_map.mp (by rwa [Option.toList_map] at hsource)
    exact congrArg some (Package.entity_of? (Option.mem_toList.mp hl))

namespace Generator

variable {g : Generator σ τ} {s : σ} {sink : τ} {report : Report} {q : Progress σ τ}

theorem entity?_of_makesTold {r : Resolver} {entity : Entity} {part : List Source}
    (h : g.MakesTold r entity part) : ∀ source ∈ part, source.entity? = some entity.name := by
  obtain ⟨fields, hmakes⟩ := makes_of_makesTold h
  have hentity := Package.entity?_of_mem hmakes
  exact hentity

/-- The sources that stand for an entity type are those that were made of it. -/
theorem mem_part_iff {k : Knowledge} {parts : List (List Source)} {entity : Entity}
    {part : List Source} (hparts : List.Forall₂ (g.MakesTold k.resolver) k.generated parts)
    (hmem : entity ∈ k.generated) (honly : ∀ e ∈ k.generated, e.name = entity.name →
      ∀ part', g.MakesTold k.resolver e part' → part' = part) {source : Source} :
    source ∈ part ↔ source ∈ k.sources g.package parts ∧ source.entity? = some entity.name := by
  constructor
  · intro hsource
    -- all that was made for the name is the one part
    obtain ⟨part', hpart', hmakes⟩ := exists_right_of_mem hparts hmem
    obtain rfl := honly entity hmem rfl part' hmakes
    refine ⟨?_, entity?_of_makesTold hmakes source hsource⟩
    refine List.mem_append_right _ (List.mem_cons_of_mem _ ?_)
    exact List.mem_flatten.mpr ⟨part', hpart', hsource⟩
  · rintro ⟨hsource, hentity⟩
    rcases List.mem_append.mp hsource with hlist | hsource
    · obtain ⟨list, -, rfl⟩ := List.mem_map.mp hlist
      cases hentity
    rcases List.mem_cons.mp hsource with rfl | hsource
    · cases hentity
    · obtain ⟨part', hpart', hsource⟩ := List.mem_flatten.mp hsource
      obtain ⟨e, he, hmakes⟩ := exists_left_of_mem hparts hpart'
      -- the source names the entity type it was made of, and only this one has the name
      have hname : some e.name = some entity.name :=
        (entity?_of_makesTold hmakes source hsource).symm.trans hentity
      rwa [← honly e he (Option.some.inj hname) part' hmakes]

/-! ## The report -/

/-- **What a report says of what was fetched.** -/
structure Accounted (g : Generator σ τ) (root : Entity) (types : List Entity)
    (roots : List ListNode) (phases : List Phase) (report : Report) (written : List Source) :
    Prop where
  entities_ascending : report.entities.Pairwise (· < ·)
  mem_entities : ∀ name, name ∈ report.entities
    ↔ (name ∈ types.map Entity.name ∨ name = workItemRoot) ∧ isExcluded name = false
  skipped_ascending : report.skipped.Pairwise (· < ·)
  mem_skipped : ∀ name, name ∈ report.skipped
    ↔ (name ∈ types.map Entity.name ∨ name = workItemRoot) ∧ isExcluded name = true
  lists : report.lists
    = roots.countP fun r => r.id ∉ g.settings.ignoredLists.keys ∧ r.activity ≠ .removed
  phaseGroups : report.phaseGroups = (phases.map fun phase => typeName phase.entity).toFinset.card
  /-- A file for each list, one for the phases, and those of each entity type that gets a model, by
  the descriptor that counts for it. -/
  files : ∃ (identifiers : List String) (generated : List Entity),
    identifiers.Pairwise (· < ·)
      ∧ identifiers.Perm (Java.distinctConstants
          ((roots.filter fun r => r.id ∉ g.settings.ignoredLists.keys
            ∧ r.activity ≠ .removed).map Lists.sibling) none)
      ∧ generated.map Entity.name = report.entities
      ∧ (∀ e ∈ generated, descriptor? root types e.name = some e)
      ∧ report.files = identifiers.map g.package.layout.list
          ++ g.package.layout.phases :: generated.flatMap g.package.layout.entityFiles
      ∧ report.files.length = report.lists + 1 + 2 * report.entities.length
          + generated.countP fun e => e.HasCollection
  /-- The sources of `work_item_root` are made of the descriptor and the fields of the technical
  preview, and references to it are resolved against this descriptor. -/
  root_sources : ∃ r part, r.catalog.get? workItemRoot = some root
    ∧ g.package.entitySources r root = .ok part
    ∧ ∀ source, source ∈ part ↔ source ∈ written ∧ source.entity? = some workItemRoot

/-- What is known is in the catalog under its name. -/
theorem get?_of_mem_generated {e : Entity} (he : e ∈ (g.told s).generated) :
    (g.toldCatalog s).get? e.name = some e :=
  Catalog.get?_of_mem_values (List.mem_filter.mp he).1

/-- **A report accounts for what was fetched**, if the client describes the type that it is asked
for. -/
theorem start_accounted
    (hname : ∀ name s entity, (g.client (.entityType name) s).1 = .ok entity → entity.name = name)
    (h : g.start s sink = (.ok report, q)) :
    ∃ root types roots phases, g.Fetched s root types roots phases
      ∧ g.Accounted root types roots phases report q.written := by
  have hfetched := start_fetched h
  refine ⟨_, _, _, _, hfetched, ?_⟩
  have hroot : (g.toldRoot s).name = workItemRoot := by
    obtain ⟨entity, fields, hentity, -, heq⟩ := hfetched.root
    rw [heq]
    exact hname workItemRoot _ entity hentity
  have hget : ∀ name, (g.toldCatalog s).get? name
      = descriptor? (g.toldRoot s) (g.toldTypes s) name := get?_catalog hroot _
  obtain ⟨parts, hparts, hwritten, rfl⟩ := start_sources h
  have hfiles : q.written.map g.fileOf = (g.told s).files g.package.layout := by
    rw [hwritten]
    exact map_file_sources (hparts.imp fun _ _ => makes_of_makesTold)
  have hentities := Knowledge.report_entities (k := g.told s) rfl (q.written.map g.fileOf)
  have hlists := Lists.length_enums_build (rootsAt g.client (g.pastTypes s))
    (g.toldValues (g.pastTypes s)) g.settings.ignoredLists
  constructor
  case entities_ascending => exact (g.toldCatalog s).entities.ascending.filter _
  case mem_entities =>
    intro name
    refine List.mem_filter.trans ?_
    rw [Bool.not_eq_true']
    exact and_congr_left' (mem_names_catalog hroot)
  case skipped_ascending => exact (g.toldCatalog s).entities.ascending.filter _
  case mem_skipped =>
    intro name
    exact List.mem_filter.trans (and_congr_left' (mem_names_catalog hroot))
  case lists =>
    refine hlists.trans ?_
    rw [Lists.survivingRoots_eq, ← List.countP_eq_length_filter]
  case phaseGroups => exact Phases.size_merge_empty _
  case files =>
    refine ⟨(g.told s).lists.enums.map ListEnum.identifier, (g.told s).generated,
      Lists.ascending_build _ _ _, ?_, hentities.symm, ?_, ?_, ?_⟩
    · rw [← Lists.survivingRoots_eq]
      exact Lists.identifiers_build_perm _ _ _
    · intro e he
      rw [← hget]
      exact get?_of_mem_generated he
    · rw [List.map_map]
      exact hfiles
    · rw [hentities, List.length_map]
      exact (congrArg List.length hfiles).trans (Knowledge.length_files _ _)
  case root_sources =>
    have hrootGet : (g.toldCatalog s).get? workItemRoot = some (g.toldRoot s) := by
      rw [hget]
      exact if_pos rfl
    have hmem : g.toldRoot s ∈ (g.told s).generated := by
      refine List.mem_filter.mpr ⟨Catalog.mem_values_of_get? hrootGet, ?_⟩
      rw [hroot]
      decide
    obtain ⟨part, -, s', hpart⟩ := exists_right_of_mem hparts hmem
    -- the fields of `work_item_root` are not asked for again
    have htold : ∀ s', g.toldEntity s' (g.toldRoot s) = g.toldRoot s := fun s' => if_pos hroot
    rw [htold] at hpart
    refine ⟨(g.told s).resolver, part, hrootGet, hpart, fun source => ?_⟩
    rw [hwritten, ← hroot]
    refine mem_part_iff hparts hmem fun e he hname part' hmakes => ?_
    have heq : e = g.toldRoot s := by
      have hgetRoot := get?_of_mem_generated he
      rw [hname, hroot, hrootGet] at hgetRoot
      exact (Option.some.inj hgetRoot).symm
    obtain ⟨s'', hpart'⟩ := hmakes
    rw [heq, htold, hpart] at hpart'
    exact (Except.ok.inj hpart').symm

theorem start_small_accounted :
    ∃ report q, small.start () .empty = (.ok report, q)
      ∧ ∃ root types roots phases, small.Fetched () root types roots phases
        ∧ small.Accounted root types roots phases report q.written := by
  obtain ⟨report, q, hstart⟩ := start_small_ok
  refine ⟨report, q, hstart, start_accounted (fun name s entity h => ?_) hstart⟩
  obtain rfl := Except.ok.inj h
  rfl

end Generator

end TypedEntities
