import Mathlib
import TypedEntities.Proofs.Generation.Protocol
import TypedEntities.Proofs.Source.Rendering

/-!
# Clients that do not change their mind

A client is steady if asking for data changes none of the answers to questions for data: within a
session it goes on telling what it told at the start (`Client.Agrees`). The plan of a run then speaks
of one state only, `Generator.planAt`, and whether a deed of it can be done is known beforehand
(`Generator.Goes`): a plan whose deeds all go is carried out to its end, `carryOut_of_goes`, and the
deeds of a plan that was carried out to its end all go, `goes_of_carryOut`.
-/

namespace TypedEntities

open TypedEntities.Metadata
open Deed (calls)

variable {σ τ α β : Type}

/-! ## Steady clients -/

namespace Client

/-- Asking for data changes none of the answers to questions for data. -/
def Steady (c : Client σ) : Prop :=
  ∀ s (asked call : Call), asked.isSession = false → call.isSession = false →
    (c call (c asked s).2).1 = (c call s).1

/-- In two states a client gives the same answers to questions for data. -/
def Agrees (c : Client σ) (s₀ s : σ) : Prop :=
  ∀ call : Call, call.isSession = false → (c call s).1 = (c call s₀).1

variable {c : Client σ} {s₀ s : σ}

theorem Agrees.refl (c : Client σ) (s : σ) : c.Agrees s s := fun _ _ => rfl

/-- A steady client agrees after any questions for data. -/
theorem Agrees.after (hc : c.Steady) (h : c.Agrees s₀ s) {asked : List Call}
    (hasked : ∀ call ∈ asked, call.isSession = false) : c.Agrees s₀ (c.after s asked) := by
  induction asked generalizing s with
  | nil => exact h
  | cons first asked ih =>
    have hfirst := hasked first (List.mem_cons_self ..)
    exact ih (fun call hcall => (hc s first call hfirst hcall).trans (h call hcall))
      fun call hcall => hasked call (List.mem_cons_of_mem _ hcall)

/-- What a server tells in a session is the same in states that agree. -/
theorem Agrees.tells_eq (h : c.Agrees s₀ s) {call : Call} (hcall : call.isSession = false) :
    c.tells s call = c.tells s₀ call := by
  unfold tells
  rw [h call hcall]

/-- So is what is read of a collection. -/
theorem Agrees.answered_eq (h : c.Agrees s₀ s) (collection : String) (selection : Selection)
    (read : Record → Except Failure α) :
    answered c collection selection read s = answered c collection selection read s₀ := by
  unfold answered
  rw [h (.query collection selection) rfl]

end Client

namespace Generator

open Client (Agrees)

variable {g : Generator σ τ} {s₀ s : σ} {p q : Progress σ τ} {plan : List Deed}

/-! ## Deeds that go -/

/-- Whether a deed can be done within a session, given what the client answers in a state. -/
def Goes (g : Generator σ τ) (s₀ : σ) : Deed → Prop
  | .ask call _ => call.isSession = false ∧ ∃ answer, (g.client call s₀).1 = .ok answer
  | .readNodes records => ∃ nodes, records.mapM Record.listNode = .ok nodes
  | .readPhases records => ∃ phases, records.mapM Record.phase = .ok phases
  | .make r entity => ∃ part, g.package.entitySources r entity = .ok part
  | .emit _ => True
  | .leave => False

/-- A deed within a session asks for data. -/
theorem Goes.isSession_eq {deed : Deed} (h : g.Goes s₀ deed) :
    ∀ call ∈ deed.call?.toList, call.isSession = false := by
  intro call hcall
  cases deed with
  | ask first _ =>
    obtain rfl := List.mem_singleton.mp hcall
    exact h.1
  | leave => exact h.elim
  | readNodes | readPhases | make | emit => cases hcall

/-- Sources can be rendered, and the sink takes every file. -/
structure Reliable (g : Generator σ τ) : Prop where
  renders : ∀ source : Source, ∃ text, g.render source.kind source.context = .ok text
  takes : ∀ file text sink, (g.sink file text sink).1 = .ok ()

/-- The templates of the program render every source. -/
theorem reliable_of_standard (hrender : g.render = fun kind => Engine.standard.render kind.templateName)
    (htakes : ∀ file text sink, (g.sink file text sink).1 = .ok ()) : g.Reliable where
  renders source := by
    obtain ⟨text, -, htext⟩ := source.exists_render
    exact ⟨text, by rw [hrender]; exact htext⟩
  takes := htakes

theorem map_unit_eq_ok {result : Except Failure α} :
    (result.map fun _ => ()) = .ok () ↔ ∃ a, result = .ok a := by
  cases result with
  | error f => simp [Except.map]
  | ok a => simp [Except.map]

/-- A deed that can be done is done. -/
theorem perform_of_goes (hg : g.Reliable) (hp : g.client.Agrees s₀ p.client) {deed : Deed}
    (h : g.Goes s₀ deed) : (g.perform deed p).1 = .ok () := by
  cases deed with
  | ask call hcall =>
    rw [perform_ask]
    refine map_unit_eq_ok.mpr ?_
    rw [show (g.ask call p).1 = (g.client call p.client).1 from rfl, hp call h.1]
    exact h.2
  | leave => exact h.elim
  | readNodes records => exact map_unit_eq_ok.mpr h
  | readPhases records => exact map_unit_eq_ok.mpr h
  | make r entity => exact map_unit_eq_ok.mpr h
  | emit source =>
    -- a reliable generator renders every source, and its sink takes every file
    obtain ⟨text, htext⟩ := hg.renders source
    show (g.emit source p).1 = _
    have htakes := hg.takes (g.fileOf source) text p.sink
    unfold emit
    rw [Run.bind_apply, htext]
    show (g.put source text p).1 = _
    unfold put
    split
    next => rfl
    next f sink hsink =>
      rw [hsink] at htakes
      cases htakes

/-- A deed that was done can be done. -/
theorem goes_of_perform (hp : g.client.Agrees s₀ p.client) {deed : Deed}
    (hdata : ∀ call ∈ deed.call?.toList, call.isSession = false) (h : (g.perform deed p).1 = .ok ()) :
    g.Goes s₀ deed := by
  cases deed with
  | ask call hcall =>
    rw [perform_ask] at h
    have hcall := hdata call (List.mem_singleton_self call)
    obtain ⟨answer, hanswer⟩ := map_unit_eq_ok.mp h
    exact ⟨hcall, answer, (hp call hcall).symm.trans hanswer⟩
  | leave => exact absurd (hdata .signOut (List.mem_singleton_self _)) nofun
  | emit => trivial
  | readNodes records => exact map_unit_eq_ok.mp h
  | readPhases records => exact map_unit_eq_ok.mp h
  | make r entity => exact map_unit_eq_ok.mp h

/-- A deed that asks for data only leaves the client agreeing. -/
theorem agrees_after_perform (hc : g.client.Steady) (hp : g.client.Agrees s₀ p.client) {deed : Deed}
    (hdata : ∀ call ∈ deed.call?.toList, call.isSession = false) :
    g.client.Agrees s₀ (g.perform deed p).2.client := by
  rw [perform_client]
  exact hp.after hc hdata

/-- A plan whose deeds can all be done is carried out to its end. -/
theorem carryOut_of_goes (hc : g.client.Steady) (hg : g.Reliable)
    (hp : g.client.Agrees s₀ p.client) (h : ∀ deed ∈ plan, g.Goes s₀ deed) :
    ∃ q, g.carryOut plan p = (.ok (), q) := by
  induction plan generalizing p with
  | nil => exact ⟨p, rfl⟩
  | cons deed plan ih =>
    obtain ⟨hgoes, hrest⟩ := List.forall_mem_cons.mp h
    have hdeed := perform_of_goes hg hp hgoes
    obtain ⟨q, hq⟩ := ih (agrees_after_perform hc hp hgoes.isSession_eq) hrest
    refine ⟨q, ?_⟩
    show (g.perform deed >>= fun _ => g.carryOut plan) p = _
    rw [Run.bind_apply]
    generalize g.perform deed p = done at *
    obtain ⟨result, m⟩ := done
    cases hdeed
    exact hq

/-- The deeds of a plan that was carried out to its end can all be done. -/
theorem goes_of_carryOut (hc : g.client.Steady)
    (hdata : ∀ call ∈ calls plan, call.isSession = false) (hp : g.client.Agrees s₀ p.client)
    (h : g.carryOut plan p = (.ok (), q)) : ∀ deed ∈ plan, g.Goes s₀ deed := by
  induction plan generalizing p with
  | nil => exact nofun
  | cons deed plan ih =>
    rw [Deed.calls_cons, List.forall_mem_append] at hdata
    obtain ⟨⟨⟩, m, hdeed, hrest⟩ :=
      Run.bind_eq_ok (x := g.perform deed) (f := fun _ => g.carryOut plan) h
    have hafter := agrees_after_perform hc hp hdata.1
    rw [hdeed] at hafter
    exact List.forall_mem_cons.mpr
      ⟨goes_of_perform hp hdata.1 (congrArg Prod.fst hdeed), ih hdata.2 hafter hrest⟩

/-- A plan fails at an entity type without sources, if the deeds before it can all be done. -/
theorem carryOut_eq_error (hc : g.client.Steady) (hg : g.Reliable)
    (hp : g.client.Agrees s₀ p.client) (h : ∀ deed ∈ plan, g.Goes s₀ deed) {r : Resolver}
    {entity : Entity} {f : Failure} (hmake : g.package.entitySources r entity = .error f)
    (rest : List Deed) : (g.carryOut (plan ++ .make r entity :: rest) p).1 = .error f := by
  obtain ⟨q, hq⟩ := carryOut_of_goes hc hg hp h
  have hperform : g.perform (.make r entity) q = (.error f, q) := by
    show settle _ q = _
    rw [hmake]
    rfl
  rw [carryOut_append, Run.bind_apply, hq]
  show ((g.perform (.make r entity) >>= fun _ => g.carryOut rest) q).1 = _
  rw [Run.bind_apply, hperform]

/-! ## The plan of a session -/

/-- Deeds for every entry of a list are the same whatever was asked for before. -/
theorem each_eq_flatMap (hc : g.client.Steady) {each_plan : σ → α → List Deed}
    (hplan : ∀ s a, g.client.Agrees s₀ s → each_plan s a = each_plan s₀ a)
    (hdata : ∀ s a, ∀ call ∈ calls (each_plan s a), call.isSession = false)
    (hs : g.client.Agrees s₀ s) (l : List α) :
    g.each each_plan s l = l.flatMap (each_plan s₀) := by
  induction l generalizing s with
  | nil => rfl
  | cons a l ih =>
    rw [each, List.flatMap_cons, ih (hs.after hc (hdata s a)), hplan s a hs]

/-- What is told of each entry of a list is what was to be told of it from the start. -/
theorem toldEach_eq_map (hc : g.client.Steady) {each_plan : σ → α → List Deed} {told : σ → α → β}
    (htold : ∀ s a, g.client.Agrees s₀ s → told s a = told s₀ a)
    (hdata : ∀ s a, ∀ call ∈ calls (each_plan s a), call.isSession = false)
    (hs : g.client.Agrees s₀ s) (l : List α) :
    g.toldEach each_plan told s l = l.map (told s₀) := by
  induction l generalizing s with
  | nil => rfl
  | cons a l ih =>
    rw [toldEach, List.map_cons, ih (hs.after hc (hdata s a)), htold s a hs]

/-- What a run knows of the workspace, as the client tells of it in one state. -/
def knownAt (g : Generator σ τ) (s₀ : σ) (catalog : Catalog) : Knowledge :=
  ⟨catalog,
    Lists.build (rootsAt g.client s₀) ((g.wanted s₀).flatMap (valuesAt g.client s₀))
      g.settings.ignoredLists,
    g.toldPhases s₀⟩

/-- The deeds that read lists and phases. -/
def readPlanAt (g : Generator σ τ) (s₀ : σ) : List Deed :=
  g.nodesPlan activeRoots s₀ ++ (g.wanted s₀).flatMap (g.valuesPlan s₀) ++ g.phasesPlan s₀

/-- The deeds that write what is known, but for the entity types. -/
def enumPlan (g : Generator σ τ) (k : Knowledge) : List Deed :=
  k.lists.enums.map (fun list => .emit (g.package.listSource list))
    ++ [.emit (g.package.phasesSource k.phases)]

/-- The deeds of a session whose client tells everything in one state. -/
def planAt (g : Generator σ τ) (s₀ : σ) (catalog : Catalog) : List Deed :=
  g.readPlanAt s₀ ++ g.enumPlan (g.knownAt s₀ catalog)
    ++ (g.knownAt s₀ catalog).generated.flatMap (g.entityPlan (g.knownAt s₀ catalog).resolver s₀)

section Session

variable (hs : g.client.Agrees s₀ s)
include hs

/-- The pages of list nodes are asked for in the same way. -/
theorem nodesPlan_eq (filter : Filter) : g.nodesPlan filter s = g.nodesPlan filter s₀ := by
  unfold nodesPlan
  rw [hs.tells_eq (show (nodesCall filter).isSession = false from rfl)]

/-- The same roots are wanted. -/
theorem wanted_eq : g.wanted s = g.wanted s₀ := by
  unfold wanted rootsAt answeredNodes
  rw [hs.answered_eq]

/-- Their values are the same. -/
theorem valuesAt_eq (root : ListNode) : valuesAt g.client s root = valuesAt g.client s₀ root := by
  unfold valuesAt answeredNodes
  rw [hs.answered_eq]

/-- The phases are the same. -/
theorem toldPhases_eq : g.toldPhases s = g.toldPhases s₀ := by
  unfold toldPhases phasesAt
  rw [hs.answered_eq]

theorem phasesPlan_eq : g.phasesPlan s = g.phasesPlan s₀ := by
  unfold phasesPlan
  rw [hs.tells_eq (show phasesCall.isSession = false from rfl)]

/-- The fields of an entity type are the same. -/
theorem toldEntity_eq (entity : Entity) : g.toldEntity s entity = g.toldEntity s₀ entity := by
  unfold toldEntity
  rw [hs.tells_eq (show (Call.fields entity.name).isSession = false from rfl)]

/-- So its sources are, with all that is asked for them. -/
theorem entityPlan_eq (r : Resolver) (entity : Entity) :
    g.entityPlan r s entity = g.entityPlan r s₀ entity := by
  unfold entityPlan
  rw [toldEntity_eq hs]

end Session

/-! ### Calls -/

/-- To read list nodes does not touch the session. -/
theorem isSession_of_mem_nodesPlan (g : Generator σ τ) (filter : Filter) (s : σ) :
    ∀ call ∈ calls (g.nodesPlan filter s), call.isSession = false := by
  intro call hcall
  obtain rfl := List.mem_singleton.mp hcall
  rfl

/-- Nor does it to read all lists. -/
theorem isSession_of_mem_listsPlan (g : Generator σ τ) (s : σ) :
    ∀ call ∈ calls (g.listsPlan s), call.isSession = false := by
  rw [calls_listsPlan]
  intro call hcall
  rcases List.mem_cons.mp hcall with rfl | hcall
  · rfl
  · obtain ⟨root, -, rfl⟩ := List.mem_map.mp hcall
    rfl

/-- Nor does it to write an entity type. -/
theorem isSession_of_mem_entityPlan (g : Generator σ τ) (r : Resolver) (s : σ) (entity : Entity) :
    ∀ call ∈ calls (g.entityPlan r s entity), call.isSession = false := by
  rw [calls_entityPlan]
  intro call hcall
  split at hcall
  next => cases hcall
  next =>
    obtain rfl := List.mem_singleton.mp hcall
    rfl

/-- What a steady client tells after the start of a session is what it told then. -/
theorem catalogPlan_eq (hc : g.client.Steady) (hs : g.client.Agrees s₀ s) (catalog : Catalog) :
    g.knowledge s catalog = g.knownAt s₀ catalog ∧ g.catalogPlan s catalog = g.planAt s₀ catalog := by
  -- every stage is read in a state that agrees with the one at the start of the session
  have hroots : g.client.Agrees s₀ (g.pastRoots s) :=
    hs.after hc (isSession_of_mem_nodesPlan g activeRoots s)
  have hlists : g.client.Agrees s₀ (g.client.after s (calls (g.listsPlan s))) :=
    hs.after hc (isSession_of_mem_listsPlan g s)
  have hphases : g.client.Agrees s₀
      (g.client.after (g.client.after s (calls (g.listsPlan s))) [phasesCall]) :=
    hlists.after hc (List.forall_mem_singleton.mpr rfl)
  have hvalues : ∀ s root, ∀ call ∈ calls (g.valuesPlan s root), call.isSession = false :=
    fun s root => isSession_of_mem_nodesPlan g (valuesBelow root) s
  have hrootsAt : rootsAt g.client s = rootsAt g.client s₀ := by
    unfold rootsAt answeredNodes
    rw [hs.answered_eq]
  have hknown : g.knowledge s catalog = g.knownAt s₀ catalog := by
    unfold knowledge knownAt toldLists toldValues
    rw [hrootsAt, wanted_eq hs, toldPhases_eq hlists,
      toldEach_eq_map hc (fun _ root h => valuesAt_eq h root) hvalues hroots, ← List.flatMap_def]
  refine ⟨hknown, ?_⟩
  -- the plan follows what was told, and that is the same
  have hlistsPlan : g.listsPlan s
      = g.nodesPlan activeRoots s₀ ++ (g.wanted s₀).flatMap (g.valuesPlan s₀) := by
    have heach : g.each g.valuesPlan (g.pastRoots s) (g.wanted s₀)
        = (g.wanted s₀).flatMap (g.valuesPlan s₀) :=
      each_eq_flatMap hc (fun _ root h => nodesPlan_eq h (valuesBelow root)) hvalues hroots _
    unfold listsPlan
    rw [nodesPlan_eq hs, wanted_eq hs, heach]
  have hwritePlan : g.writePlan (g.pastPhases s) (g.knowledge s catalog)
      = g.enumPlan (g.knownAt s₀ catalog)
        ++ (g.knownAt s₀ catalog).generated.flatMap
          (g.entityPlan (g.knownAt s₀ catalog).resolver s₀) := by
    have heach : ∀ r entities, g.each (g.entityPlan r) (g.pastPhases s) entities
        = entities.flatMap (g.entityPlan r s₀) := fun r entities =>
      each_eq_flatMap hc (fun _ entity h => entityPlan_eq h r entity)
        (isSession_of_mem_entityPlan g r) hphases entities
    unfold writePlan enumPlan
    rw [hknown, heach, List.append_assoc, List.singleton_append]
  unfold catalogPlan planAt readPlanAt
  rw [hwritePlan, phasesPlan_eq hlists, hlistsPlan]
  simp only [List.append_assoc]

/-- Within a session all calls ask for data. -/
theorem isSession_of_mem_planAt (g : Generator σ τ) (s₀ : σ) (catalog : Catalog) :
    ∀ call ∈ calls (g.planAt s₀ catalog), call.isSession = false := by
  have hflatMap : ∀ {α : Type} (l : List α) (f : α → List Deed),
      (∀ a, ∀ call ∈ calls (f a), call.isSession = false) →
        ∀ call ∈ calls (l.flatMap f), call.isSession = false := by
    intro α l f hf call hcall
    rw [calls, List.filterMap_flatMap] at hcall
    obtain ⟨a, -, hcall⟩ := List.mem_flatMap.mp hcall
    exact hf a call hcall
  -- writing calls nothing
  have henums : calls (g.enumPlan (g.knownAt s₀ catalog)) = [] := by
    rw [enumPlan, Deed.calls_append, Deed.calls_map_emit]
    rfl
  unfold planAt readPlanAt
  simp only [Deed.calls_append, henums, List.append_nil, List.forall_mem_append]
  refine ⟨⟨⟨isSession_of_mem_nodesPlan g _ s₀, ?_⟩, ?_⟩, ?_⟩
  · exact hflatMap _ _ fun root => isSession_of_mem_nodesPlan g _ s₀
  · exact List.forall_mem_singleton.mpr rfl
  · exact hflatMap _ _ (isSession_of_mem_entityPlan g _ s₀)

/-- Writing lists and phases asks nothing. -/
theorem goes_enumPlan (k : Knowledge) (s₀ : σ) : ∀ deed ∈ g.enumPlan k, g.Goes s₀ deed := by
  intro deed hdeed
  rcases List.mem_append.mp hdeed with hlist | hphases
  · obtain ⟨list, -, rfl⟩ := List.mem_map.mp hlist
    trivial
  · obtain rfl := List.mem_singleton.mp hphases
    trivial

/-! ## Steady runs -/

/-- What a run of a steady client knows of the workspace. -/
def known (g : Generator σ τ) (s : σ) : Knowledge := g.knownAt (g.inMain s) (g.toldCatalog s)

theorem known_catalog (g : Generator σ τ) (s : σ) : (g.known s).catalog = g.toldCatalog s := rfl

theorem known_phases (g : Generator σ τ) (s : σ) :
    (g.known s).phases = g.toldPhases (g.inMain s) := rfl

theorem mainSignIn_ne_signOut (g : Generator σ τ) : g.mainSignIn ≠ .signOut := by
  simp [mainSignIn]

theorem entityTypes_ne_signOut : Call.entityTypes ≠ .signOut := by simp

/-- The deeds that lead into the session in which lists are read. -/
def opening (g : Generator σ τ) : List Deed :=
  g.rootPlan
    ++ [.ask g.mainSignIn g.mainSignIn_ne_signOut, .ask .entityTypes entityTypes_ne_signOut]

/-- The server still agrees with itself when the entity types are read. -/
theorem agrees_pastTypes (hc : g.client.Steady) (s : σ) :
    g.client.Agrees (g.inMain s) (g.pastTypes s) :=
  (Agrees.refl _ _).after hc (List.forall_mem_singleton.mpr rfl)

/-- The plan of a steady run: the opening, one session as the client tells of it at its start, and
the sign-out. -/
theorem plan_eq (hc : g.client.Steady) (s : σ) :
    g.plan s = g.opening ++ (g.planAt (g.inMain s) (g.toldCatalog s) ++ [.leave]) := by
  unfold plan opening
  rw [(catalogPlan_eq hc (agrees_pastTypes hc s) _).2, List.append_assoc]
  rfl

/-- What a run is told on its way is what could be known when it signs in. -/
theorem told_eq_known (hc : g.client.Steady) (s : σ) : g.told s = g.known s :=
  (catalogPlan_eq hc (agrees_pastTypes hc s) _).1

/-- A run that came to its session carries out what the session asks for, and reports what is known. -/
theorem start_of_opening (hc : g.client.Steady) {sink : τ} {m : Progress σ τ}
    (hopening : g.carryOut g.opening ⟨s, sink, [], []⟩ = (.ok (), m)) :
    (g.start s sink).1
      = ((g.carryOut (g.planAt (g.inMain s) (g.toldCatalog s) ++ [.leave]) m).1).map fun _ =>
          (g.known s).report ((Deed.sources (g.plan s)).map g.fileOf) := by
  rw [start_eq_carryOut, told_eq_known hc]
  generalize (g.known s).report _ = report
  rw [plan_eq hc, carryOut_append, bind_assoc, Run.bind_apply, hopening]
  show ((g.carryOut (g.planAt (g.inMain s) (g.toldCatalog s) ++ [.leave]) >>= fun _ =>
    pure report) m).1 = _
  rw [Run.bind_apply]
  rcases g.carryOut _ m with ⟨_ | _, _⟩ <;> rfl

/-- A run that ends well came to its session, and there all deeds could be done. -/
theorem start_goes (hc : g.client.Steady) {sink : τ} {report : Report}
    (h : g.start s sink = (.ok report, q)) :
    (∃ m, g.carryOut g.opening ⟨s, sink, [], []⟩ = (.ok (), m)
        ∧ g.client.Agrees (g.inMain s) m.client)
      ∧ (∀ deed ∈ g.planAt (g.inMain s) (g.toldCatalog s), g.Goes (g.inMain s) deed)
      ∧ ∃ files, report = (g.known s).report files := by
  obtain ⟨hplan, hreport⟩ := start_carryOut_ok h
  rw [told_eq_known hc] at hreport
  rw [plan_eq hc, carryOut_append] at hplan
  obtain ⟨⟨⟩, m, hopening, hrest⟩ := Run.bind_eq_ok hplan
  rw [carryOut_append] at hrest
  obtain ⟨⟨⟩, m', hsession, -⟩ := Run.bind_eq_ok hrest
  have hagrees : g.client.Agrees (g.inMain s) m.client := by
    rw [(carryOut_ok hopening).1]
    exact agrees_pastTypes hc s
  exact ⟨⟨m, hopening, hagrees⟩,
    goes_of_carryOut hc (isSession_of_mem_planAt g _ _) hagrees hsession, _, hreport⟩

/-- A run that came to its session ends well if all deeds can be done there. -/
theorem start_ok_of_goes (hc : g.client.Steady) (hg : g.Reliable) {sink : τ} {m : Progress σ τ}
    (hopening : g.carryOut g.opening ⟨s, sink, [], []⟩ = (.ok (), m))
    (hagrees : g.client.Agrees (g.inMain s) m.client)
    (h : ∀ deed ∈ g.planAt (g.inMain s) (g.toldCatalog s), g.Goes (g.inMain s) deed) :
    ∃ files, (g.start s sink).1 = .ok ((g.known s).report files) := by
  obtain ⟨q, hq⟩ := carryOut_of_goes hc hg hagrees h
  rw [start_of_opening hc hopening, carryOut_append, Run.bind_apply, hq]
  exact ⟨_, rfl⟩

/-- A run that came to its session fails at the first entity type without sources. -/
theorem start_eq_error (hc : g.client.Steady) (hg : g.Reliable) {sink : τ} {m : Progress σ τ}
    (hopening : g.carryOut g.opening ⟨s, sink, [], []⟩ = (.ok (), m))
    (hagrees : g.client.Agrees (g.inMain s) m.client) {before after : List Entity} {entity : Entity}
    (hgenerated : (g.known s).generated = before ++ entity :: after)
    (hread : ∀ deed ∈ g.readPlanAt (g.inMain s), g.Goes (g.inMain s) deed)
    (hbefore : ∀ e ∈ before, ∀ deed ∈ g.entityPlan (g.known s).resolver (g.inMain s) e,
      g.Goes (g.inMain s) deed)
    (hfields : ∀ deed ∈ fieldsPlan entity, g.Goes (g.inMain s) deed) {f : Failure}
    (hmake : g.package.entitySources (g.known s).resolver (g.toldEntity (g.inMain s) entity)
      = .error f) :
    (g.start s sink).1 = .error f := by
  -- all that comes before the entity type goes well
  have hall : ∀ deed ∈ g.readPlanAt (g.inMain s) ++ g.enumPlan (g.known s)
      ++ before.flatMap (g.entityPlan (g.known s).resolver (g.inMain s)) ++ fieldsPlan entity,
      g.Goes (g.inMain s) deed := by
    simp only [List.forall_mem_append]
    refine ⟨⟨⟨hread, goes_enumPlan _ _⟩, fun deed hdeed => ?_⟩, hfields⟩
    obtain ⟨e, he, hdeed⟩ := List.mem_flatMap.mp hdeed
    exact hbefore e he deed hdeed
  -- the plan, split where the sources of the entity type are made
  have hplan : g.planAt (g.inMain s) (g.toldCatalog s) ++ [.leave]
      = (g.readPlanAt (g.inMain s) ++ g.enumPlan (g.known s)
          ++ before.flatMap (g.entityPlan (g.known s).resolver (g.inMain s)) ++ fieldsPlan entity)
        ++ .make (g.known s).resolver (g.toldEntity (g.inMain s) entity)
          :: ((g.madeSources (g.known s).resolver (g.toldEntity (g.inMain s) entity)).map .emit
            ++ after.flatMap (g.entityPlan (g.known s).resolver (g.inMain s)) ++ [.leave]) := by
    show g.readPlanAt (g.inMain s) ++ g.enumPlan (g.known s)
      ++ (g.known s).generated.flatMap (g.entityPlan (g.known s).resolver (g.inMain s)) ++ _ = _
    rw [hgenerated, List.flatMap_append, List.flatMap_cons, entityPlan]
    simp only [List.append_assoc, List.cons_append]
  rw [start_of_opening hc hopening, hplan, carryOut_eq_error hc hg hagrees hall hmake]
  rfl

end Generator

end TypedEntities
