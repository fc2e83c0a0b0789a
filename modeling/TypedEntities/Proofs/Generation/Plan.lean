import Mathlib
import TypedEntities.Proofs.Generation.Deed
import TypedEntities.Proofs.Generation.Order

/-!
# The plan of a run

What a run does from a state of the client, deed by deed: `Generator.plan`. It is made of the plans
of the pieces, each from the state that the client is in after the pieces before, and of what the
client tells there: `toldRoot`, `toldCatalog`, `toldLists`, `toldPhases`. The payoff is
`start_eq_carryOut`: a run carries out its plan, and the report of a run that ends well tells of what
the client told.
-/

namespace TypedEntities.Generator

open TypedEntities.Metadata
open Deed (calls sources)

variable {σ τ α : Type} {g : Generator σ τ} {s : σ} {w : List Source}

/-! ## The type `work_item_root` -/

/-- The call that opens the session of `work_item_root`. -/
def previewSignIn (g : Generator σ τ) : Call :=
  .signIn g.settings.credentials .technicalPreview

/-- The deeds that read `work_item_root`. -/
def rootPlan (g : Generator σ τ) : List Deed :=
  [.ask g.previewSignIn, .ask (.entityType workItemRoot), .ask (.fields workItemRoot), .leave]

/-- The type `work_item_root` with its fields as the technical preview tells of them. -/
def toldRoot (g : Generator σ τ) (s : σ) : Entity :=
  (g.client.tells (g.client.after s [g.previewSignIn]) (.entityType workItemRoot)).withFields
    (g.client.tells (g.client.after s [g.previewSignIn, .entityType workItemRoot])
      (.fields workItemRoot))

theorem follows_readWorkItemRoot :
    g.Follows s w g.readWorkItemRoot g.rootPlan (g.toldRoot s) :=
  .bind (follows_ask _) (.bind (follows_ask _) (.bind (follows_ask _) (.map (follows_perform .leave))))

/-! ## The catalog -/

/-- The call that opens the session of everything else. -/
def mainSignIn (g : Generator σ τ) : Call := .signIn g.settings.credentials g.settings.apiMode

/-- The client when the session of everything else has begun. -/
def inMain (g : Generator σ τ) (s : σ) : σ :=
  g.client.after s (calls g.rootPlan ++ [g.mainSignIn])

/-- The entity types that are told of. -/
def toldTypes (g : Generator σ τ) (s : σ) : List Entity := g.client.tells (g.inMain s) .entityTypes

/-- The catalog of the types that are told of. The technical preview has the last word on
`work_item_root`. -/
def toldCatalog (g : Generator σ τ) (s : σ) : Catalog :=
  Catalog.ofList ((g.toldTypes s).filter (fun e => e.name ≠ workItemRoot) ++ [g.toldRoot s])

theorem follows_readCatalog :
    g.Follows (g.inMain s) w (g.readCatalog (g.toldRoot s)) [.ask .entityTypes] (g.toldCatalog s) :=
  .map (follows_ask _)

/-! ## Lists and phases -/

/-- The call for the list nodes that a filter lets pass. -/
def nodesCall (filter : Filter) : Call := .query listNodes (nodeSelection filter)

/-- The deeds that read list nodes. -/
def nodesPlan (g : Generator σ τ) (filter : Filter) (s : σ) : List Deed :=
  [.ask (nodesCall filter), .readNodes (g.client.tells s (nodesCall filter))]

/-- Reading what a client tells is reading what it answers. -/
theorem toOption_mapM_tells (c : Client σ) (collection : String) (selection : Selection)
    (read : Record → Except Failure α) (s : σ) :
    ((c.tells s (.query collection selection)).mapM read).toOption.getD []
      = (answered c collection selection read s).toOption.getD [] := by
  unfold Client.tells answered
  cases (c (.query collection selection) s).1 <;> rfl

theorem follows_readNodes (filter : Filter) :
    g.Follows s w (g.readNodes filter) (g.nodesPlan filter s)
      ((answeredNodes g.client filter s).toOption.getD []) := by
  unfold answeredNodes
  rw [← toOption_mapM_tells]
  exact .bind (follows_ask _) (follows_settle [] rfl)

/-- The roots whose values are asked for. -/
def wanted (g : Generator σ τ) (s : σ) : List ListNode :=
  (rootsAt g.client s).filter fun root => !g.settings.ignoredLists.contains root.id

/-- The deeds that read the values of a root. -/
def valuesPlan (g : Generator σ τ) (s : σ) (root : ListNode) : List Deed :=
  g.nodesPlan (valuesBelow root) s

/-- The client when the roots were read. -/
def pastRoots (g : Generator σ τ) (s : σ) : σ := g.client.after s [nodesCall activeRoots]

/-- The deeds that read the lists. -/
def listsPlan (g : Generator σ τ) (s : σ) : List Deed :=
  g.nodesPlan activeRoots s ++ g.each g.valuesPlan (g.pastRoots s) (g.wanted s)

/-- The values that are told of, those of one root after those of another. -/
def toldValues (g : Generator σ τ) (s : σ) : List ListNode :=
  (g.toldEach g.valuesPlan (valuesAt g.client) (g.pastRoots s) (g.wanted s)).flatten

/-- The lists of the roots and values that are told of. -/
def toldLists (g : Generator σ τ) (s : σ) : Lists :=
  Lists.build (rootsAt g.client s) (g.toldValues s) g.settings.ignoredLists

theorem follows_readLists : g.Follows s w g.readLists (g.listsPlan s) (g.toldLists s) :=
  .bind (follows_readNodes activeRoots)
    (.map (.mapM (fun _ _ root => follows_readNodes (valuesBelow root)) (g.wanted s)))

/-- The call for the phases. -/
def phasesCall : Call := .query "phases" phaseSelection

/-- The deeds that read the phases. -/
def phasesPlan (g : Generator σ τ) (s : σ) : List Deed :=
  [.ask phasesCall, .readPhases (g.client.tells s phasesCall)]

/-- The phases that are told of. -/
def toldPhases (g : Generator σ τ) (s : σ) : Phases := Phases.empty.merge (phasesAt g.client s)

theorem follows_readPhases : g.Follows s w g.readPhases (g.phasesPlan s) (g.toldPhases s) := by
  unfold toldPhases phasesAt
  rw [← toOption_mapM_tells]
  exact .map (.bind (follows_ask _) (follows_settle [] rfl))

/-! ## Entity types -/

/-- The deeds that read the fields of an entity type. -/
def fieldsPlan (entity : Entity) : List Deed :=
  if entity.name = workItemRoot then [] else [.ask (.fields entity.name)]

/-- An entity type with its fields. -/
def toldEntity (g : Generator σ τ) (s : σ) (entity : Entity) : Entity :=
  if entity.name = workItemRoot then entity
  else entity.withFields (g.client.tells s (.fields entity.name))

theorem follows_readFields (entity : Entity) :
    g.Follows s w (g.readFields entity) (fieldsPlan entity) (g.toldEntity s entity) := by
  unfold readFields fieldsPlan toldEntity
  split
  next => exact follows_pure entity
  next => exact .map (follows_ask _)

/-- The sources of an entity type; none if they cannot be made. -/
def madeSources (g : Generator σ τ) (r : Resolver) (entity : Entity) : List Source :=
  (g.package.entitySources r entity).toOption.getD []

/-- The deeds that write an entity type. -/
def entityPlan (g : Generator σ τ) (r : Resolver) (s : σ) (entity : Entity) : List Deed :=
  fieldsPlan entity ++ .make r (g.toldEntity s entity)
    :: (g.madeSources r (g.toldEntity s entity)).map .emit

theorem sources_entityPlan (r : Resolver) (s : σ) (entity : Entity) :
    sources (g.entityPlan r s entity) = g.madeSources r (g.toldEntity s entity) := by
  have hmap := Deed.sources_map_emit (g.madeSources r (g.toldEntity s entity)) id
  rw [List.map_id] at hmap
  unfold entityPlan fieldsPlan
  split
  next => exact hmap
  next => exact hmap

theorem follows_writeEntity (r : Resolver) (entity : Entity) :
    g.Follows s w (g.writeEntity r entity) (g.entityPlan r s entity) () :=
  .bind (follows_readFields entity)
    (.bind (follows_settle [] rfl) (follows_forM_emit id _))

/-! ## What is known, and what is written of it -/

/-- What a run knows of the workspace from where its catalog is read. -/
def knowledge (g : Generator σ τ) (s : σ) (catalog : Catalog) : Knowledge :=
  ⟨catalog, g.toldLists s, g.toldPhases (g.client.after s (calls (g.listsPlan s)))⟩

/-- The deeds that write what is known. -/
def writePlan (g : Generator σ τ) (s : σ) (k : Knowledge) : List Deed :=
  k.lists.enums.map (fun list => .emit (g.package.listSource list))
    ++ .emit (g.package.phasesSource k.phases) :: g.each (g.entityPlan k.resolver) s k.generated

/-- The client when lists and phases were read. -/
def pastPhases (g : Generator σ τ) (s : σ) : σ :=
  g.client.after (g.client.after s (calls (g.listsPlan s))) [phasesCall]

/-- The deeds that read lists and phases and write all sources. -/
def catalogPlan (g : Generator σ τ) (s : σ) (catalog : Catalog) : List Deed :=
  g.listsPlan s ++ (g.phasesPlan (g.client.after s (calls (g.listsPlan s)))
    ++ g.writePlan (g.pastPhases s) (g.knowledge s catalog))

/-- Looking at what was written at the end. -/
theorem Follows.report {x : Run σ τ Unit} {plan : List Deed} {f : List Source → α}
    (hx : g.Follows s w x plan ()) :
    g.Follows s w (x >>= fun _ => get >>= fun p => pure (f p.written)) plan
      (f (w ++ sources plan)) := by
  rintro p rfl rfl
  rw [Run.bind_apply, hx p rfl rfl, Run.bind_apply, Run.bind_apply]
  cases hplan : g.carryOut plan p with
  | mk result q =>
    cases result with
    | error f => rfl
    | ok u =>
      show (Except.ok (f q.written), q) = _
      rw [(carryOut_ok hplan).2.2]
      rfl

theorem follows_writeCatalog (catalog : Catalog) :
    g.Follows s w (g.writeCatalog catalog) (g.catalogPlan s catalog)
      ((g.knowledge s catalog).report ((w ++ sources (g.catalogPlan s catalog)).map g.fileOf)) := by
  have hwrite : ∀ w, g.Follows (g.pastPhases s) w
      ((g.toldLists s).enums.forM (fun list => g.emit (g.package.listSource list)) >>= fun _ =>
        g.emit (g.package.phasesSource (g.knowledge s catalog).phases) >>= fun _ =>
          (g.knowledge s catalog).generated.forM (g.writeEntity (g.knowledge s catalog).resolver))
      (g.writePlan (g.pastPhases s) (g.knowledge s catalog)) () := by
    intro w
    refine .bind (follows_forM_emit _ _) (.bind (follows_perform (.emit _)) ?_)
    rw [Deed.calls_map_emit]
    exact .forM (fun _ _ entity => follows_writeEntity _ entity) _
  refine .bind follows_readLists (.bind follows_readPhases ?_)
  have hreport := (hwrite (w ++ sources (g.listsPlan s)
    ++ sources (g.phasesPlan (g.client.after s (calls (g.listsPlan s)))))).report
      (f := fun written => (g.knowledge s catalog).report (written.map g.fileOf))
  simp only [bind_assoc, List.append_assoc] at hreport
  unfold catalogPlan
  rw [Deed.sources_append, Deed.sources_append, List.append_assoc]
  exact hreport

/-! ## The whole run -/

/-- The client when the entity types were read. -/
def pastTypes (g : Generator σ τ) (s : σ) : σ := g.client.after (g.inMain s) [.entityTypes]

/-- What a run knows, from a state of the client. -/
def told (g : Generator σ τ) (s : σ) : Knowledge := g.knowledge (g.pastTypes s) (g.toldCatalog s)

/-- The deeds of a whole run, from a state of the client. -/
def plan (g : Generator σ τ) (s : σ) : List Deed :=
  g.rootPlan ++ (.ask g.mainSignIn :: .ask .entityTypes ::
    (g.catalogPlan (g.pastTypes s) (g.toldCatalog s) ++ [.leave]))

/-- Reading writes nothing. -/
theorem sources_each_valuesPlan (s : σ) (roots : List ListNode) :
    sources (g.each g.valuesPlan s roots) = [] := by
  induction roots generalizing s with
  | nil => rfl
  | cons root roots ih =>
    rw [each, Deed.sources_append, ih, List.append_nil]
    rfl

/-- A plan writes what is written from what is known. -/
theorem sources_plan (s : σ) :
    sources (g.plan s) = sources (g.writePlan (g.pastPhases (g.pastTypes s)) (g.told s)) := by
  have hlists : sources (g.listsPlan (g.pastTypes s)) = [] := by
    rw [listsPlan, Deed.sources_append, sources_each_valuesPlan]
    rfl
  have hcatalog : sources (g.plan s)
      = sources (g.catalogPlan (g.pastTypes s) (g.toldCatalog s) ++ [.leave]) := rfl
  rw [hcatalog, catalogPlan, Deed.sources_append, Deed.sources_append, Deed.sources_append, hlists]
  exact List.append_nil _

theorem follows_generate :
    g.Follows s [] g.generate (g.plan s) ((g.told s).report ((sources (g.plan s)).map g.fileOf)) := by
  have hsources : sources (g.plan s)
      = [] ++ sources (g.catalogPlan (g.pastTypes s) (g.toldCatalog s)) := by
    unfold plan
    simp only [Deed.sources_append, Deed.sources_cons]
    exact List.append_nil _
  refine .bind follows_readWorkItemRoot (.bind (follows_ask g.mainSignIn) ?_)
  refine .bind follows_readCatalog (.bind (follows_writeCatalog _) ?_)
  rw [hsources]
  exact .map (follows_perform .leave)

/-- **A run carries out its plan.** If it ends well, its report is that of what the client told and
of the files of the plan. -/
theorem start_eq_carryOut (g : Generator σ τ) (s : σ) (sink : τ) :
    g.start s sink
      = (g.carryOut (g.plan s) >>= fun _ =>
          pure ((g.told s).report ((sources (g.plan s)).map g.fileOf))) ⟨s, sink, [], []⟩ :=
  follows_generate _ rfl rfl

/-- A run that ends well has carried out its plan. -/
theorem start_carryOut_ok {sink : τ} {report : Report} {q : Progress σ τ}
    (h : g.start s sink = (.ok report, q)) :
    g.carryOut (g.plan s) ⟨s, sink, [], []⟩ = (.ok (), q)
      ∧ report = (g.told s).report ((sources (g.plan s)).map g.fileOf) := by
  rw [start_eq_carryOut] at h
  obtain ⟨⟨⟩, m, hplan, hend⟩ := Run.bind_eq_ok h
  cases hend
  exact ⟨hplan, rfl⟩

/-- A run that ends well has written the sources of its plan. -/
theorem start_written {sink : τ} {report : Report} {q : Progress σ τ}
    (h : g.start s sink = (.ok report, q)) : q.written = sources (g.plan s) :=
  (carryOut_ok (start_carryOut_ok h).1).2.2

/-- A run that fails was cut short while it carried out its plan. -/
theorem start_carryOut_error {sink : τ} {f : Failure} {q : Progress σ τ}
    (h : g.start s sink = (.error f, q)) :
    g.carryOut (g.plan s) ⟨s, sink, [], []⟩ = (.error f, q) := by
  rw [start_eq_carryOut, Run.bind_apply] at h
  cases hplan : g.carryOut (g.plan s) ⟨s, sink, [], []⟩ with
  | mk result m =>
    rw [hplan] at h
    cases result with
    | error f' =>
      cases h
      rfl
    | ok u => cases h

end TypedEntities.Generator
