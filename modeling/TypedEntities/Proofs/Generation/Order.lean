import Mathlib
import TypedEntities.Proofs.Enumeration.Lists
import TypedEntities.Proofs.Enumeration.Phases
import TypedEntities.Proofs.Generation.Compare
import TypedEntities.Proofs.Source.Order

/-!
# The order in which a server lists things

A server may list entity types, fields, list nodes and phases in any order. What a run makes of them
does not depend on it as long as they can be told apart: `Generator.start_alike` compares two runs
whose clients give the same answers but for the order of what they list. Both fail, or both end well
with the same report, and in either case the same files were written.

The runs make the same calls but for the values of lists, which each run asks for in the order of
its roots. So the runs are not compared call by call there: each is compared with what the other
client would answer (`Run.Gives`).
-/

namespace TypedEntities

open TypedEntities.Metadata
open TypedEntities.Catalog (SameType)
open TypedEntities.Outcome (Agree)

variable {σ σ' τ α β γ δ : Type}

/-! ## Clients -/

/-- Whether a call opens or closes a session; all others ask for data. -/
def Call.isSession : Call → Bool
  | .signIn .. => true
  | .signOut => true
  | _ => false

/-- Answers that hold the same, but for the order of what they list. -/
def Call.SameButOrder : (call : Call) → call.Answer → call.Answer → Prop
  | .signIn .., _, _ => True
  | .signOut, _, _ => True
  | .entityTypes, a, b => ∃ moved, a.Perm moved ∧ List.Forall₂ SameType moved b
  | .entityType _, a, b => SameType a b
  | .fields _, a, b => a.Perm b
  | .query .., a, b => a.Perm b

/-- Clients that in related states give the same answers but for the order of what they list. What
is answered depends on the session; asking for data may change a state but none of the answers. -/
structure SameServer (c : Client σ) (c' : Client σ') (R : σ → σ' → Prop) : Prop where
  answers : ∀ call s s', R s s' → Agree call.SameButOrder (c call s).1 (c' call s').1
  session : ∀ call s s', call.isSession = true → R s s' → R (c call s).2 (c' call s').2
  data : ∀ call s s', call.isSession = false → R s s' → R (c call s).2 s'
  data' : ∀ call s s', call.isSession = false → R s s' → R s (c' call s').2

/-- The entities of a collection that a client tells of in a state, each read. -/
def answered (c : Client σ) (collection : String) (selection : Selection)
    (read : Record → Except Failure α) (s : σ) : Except Failure (List α) := do
  let records ← (c (.query collection selection) s).1
  records.mapM read

/-- The list nodes that a client tells of in a state. -/
def answeredNodes (c : Client σ) (filter : Filter) (s : σ) : Except Failure (List ListNode) :=
  answered c Generator.listNodes (Generator.nodeSelection filter) Record.listNode s

/-- The roots of lists; none if they cannot be read. -/
def rootsAt (c : Client σ) (s : σ) : List ListNode :=
  (answeredNodes c Generator.activeRoots s).toOption.getD []

/-- The values of a root; none if they cannot be read. -/
def valuesAt (c : Client σ) (s : σ) (root : ListNode) : List ListNode :=
  (answeredNodes c (Generator.valuesBelow root) s).toOption.getD []

/-- The phases; none if they cannot be read. -/
def phasesAt (c : Client σ) (s : σ) : List Phase :=
  (answered c "phases" Generator.phaseSelection Record.phase s).toOption.getD []

/-- What a client lists in a state can be told apart: types and the fields of each by their names,
list nodes and phases by their ids, and the roots that have logical names by these. -/
structure Apart (c : Client σ) (s : σ) : Prop where
  types : ∀ types, (c .entityTypes s).1 = .ok types → (types.map Entity.name).Nodup
  fields : ∀ entity fields, (c (.fields entity) s).1 = .ok fields →
    (fields.map Field.name).Nodup
  nodes : ((rootsAt c s ++ (rootsAt c s).flatMap (valuesAt c s)).map ListNode.id).Nodup
  logicalNames : ((rootsAt c s).filterMap ListNode.logicalName).Nodup
  phases : ((phasesAt c s).map Phase.id).Nodup

/-! ## Reading -/

namespace Generator

open Run (Alike Gives)

/-- The same generator with another client. -/
def withClient (g : Generator σ τ) (c' : Client σ') : Generator σ' τ :=
  ⟨g.settings, c', g.render, g.sink⟩

/-- Two runs are even: their clients are in related states, and they have written the same. -/
structure Even (R : σ → σ' → Prop) (p : Progress σ τ) (q : Progress σ' τ) : Prop where
  client : R p.client q.client
  sink : p.sink = q.sink
  written : p.written = q.written

/-- Two runs are even within a session that has begun in a state `s₀`. This state stays related to
those of the second client, so what the first client told of in it is still told of. -/
structure Level (R : σ → σ' → Prop) (s₀ : σ) (p : Progress σ τ) (q : Progress σ' τ) : Prop
    extends Even R p q where
  start : R s₀ q.client

variable {g : Generator σ τ} {c' : Client σ'} {R : σ → σ' → Prop} {s₀ : σ}

/-- What holds within any session holds between sessions. -/
theorem alike_of_level {P : α → β → Prop} {x : Run σ τ α} {y : Run σ' τ β}
    (h : ∀ s₀ s', R s₀ s' → Alike (Level R s₀) P x y) : Alike (Even R) P x y := by
  intro p q heven
  obtain ⟨hresult, hstate⟩ := h p.client q.client heven.client p q ⟨heven, heven.client⟩
  exact ⟨hresult, hstate.toEven⟩

theorem alike_settle {I : Progress σ τ → Progress σ' τ → Prop} {P : α → β → Prop}
    {x : Except Failure α} {y : Except Failure β} (h : Agree P x y) :
    Alike I P (settle x) (settle y) := fun _ _ hI => ⟨h, hI⟩

/-- The values that are read are those that the client tells of. -/
theorem flatten_eq_flatMap {c : Client σ} {s : σ} {l : List ListNode}
    {values : List (List ListNode)}
    (h : (l.mapM fun root => answeredNodes c (valuesBelow root) s) = .ok values) :
    values.flatten = l.flatMap (valuesAt c s) := by
  have hall := Outcome.mapM_eq_ok.mp h
  clear h
  induction hall with
  | nil => rfl
  | cons hroot _ ih =>
    rw [List.flatten_cons, List.flatMap_cons, ih]
    unfold valuesAt
    rw [hroot]
    rfl

/-- A client that answers as another one would in a state gives the list nodes of that state. -/
theorem gives_readNodes {Q : Progress σ τ → Prop} {s' : σ'}
    (hstep : ∀ selection p, Q p → Q (g.ask (.query listNodes selection) p).2)
    (hanswer : ∀ selection p, Q p → Agree List.Perm
      (g.client (.query listNodes selection) p.client).1 (c' (.query listNodes selection) s').1)
    (filter : Filter) : Gives Q List.Perm (g.readNodes filter) (answeredNodes c' filter s') :=
  .bind (fun p hp => ⟨hanswer _ p hp, hstep _ p hp⟩) fun _ _ hperm _ hp =>
    ⟨Agree.mapM_of_perm hperm, hp⟩

/-- Two computations hold the same in all their parts if each agrees with what one of two clients
tells of, and these clients agree. The second may go through the entries in another order. -/
theorem agree_flatten_of_perm {x y : Except Failure (List (List β))}
    {f f' : α → Except Failure (List β)} {l l' : List α} (h : l.Perm l')
    (hleft : Agree (List.Forall₂ List.Perm) x (l.mapM f'))
    (hsame : Agree (List.Forall₂ List.Perm) (l.mapM f) (l.mapM f'))
    (hright : Agree (List.Forall₂ List.Perm) y (l'.mapM f)) :
    Agree (fun a b => a.flatten.Perm b.flatten ∧
      ∃ c, l.mapM f = .ok c ∧ a.flatten.Perm c.flatten) x y := by
  have hfirst : Agree (fun a c => l.mapM f = .ok c ∧ a.flatten.Perm c.flatten) x (l.mapM f) := by
    refine (hleft.trans hsame.symm).imp fun a c _ hc hac => ⟨hc, ?_⟩
    obtain ⟨d, had, hcd⟩ := hac
    exact (List.Perm.flatten_congr had).trans (List.Perm.flatten_congr hcd).symm
  -- the order of the entries only moves the parts
  have hsecond : Agree (fun c b => c.flatten.Perm b.flatten) (l.mapM f) y := by
    refine ((Agree.mapM_of_perm h).trans hright.symm).imp fun c b _ _ hcb => ?_
    obtain ⟨d, hcd, hbd⟩ := hcb
    exact hcd.flatten.trans (List.Perm.flatten_congr hbd).symm
  refine (hfirst.trans hsecond).imp fun a b _ _ hab => ?_
  obtain ⟨c, ⟨hc, hac⟩, hcb⟩ := hab
  exact ⟨hac.trans hcb, c, hc, hac⟩

section Server

variable (hc : SameServer g.client c' R)
include hc

/-- Signing in and out goes the same way on both servers. -/
theorem alike_session (call : Call) (hcall : call.isSession = true) :
    Alike (Even R) call.SameButOrder (g.ask call) ((g.withClient c').ask call) := by
  intro p q h
  exact ⟨hc.answers call _ _ h.client, hc.session call _ _ hcall h.client, h.sink, h.written⟩

/-- A failing sign-out is passed over, on whichever side. -/
theorem alike_signOut :
    Alike (Even R) (fun _ _ => True) g.signOut (g.withClient c').signOut := by
  intro p q h
  exact ⟨.ok trivial, (alike_session hc .signOut rfl p q h).2⟩

/-- Within a session both clients answer what the first one would have answered at its start. -/
theorem alike_ask (call : Call) (hcall : call.isSession = false) :
    Alike (Level R s₀)
      (fun a b => call.SameButOrder a b ∧
        ∃ a₀, (g.client call s₀).1 = .ok a₀ ∧ call.SameButOrder a₀ b)
      (g.ask call) ((g.withClient c').ask call) := by
  intro p q h
  constructor
  · exact (hc.answers call _ _ h.client).both (hc.answers call _ _ h.start)
  · have hleft := hc.data call _ _ hcall h.client
    exact ⟨⟨hc.data' call _ _ hcall hleft, h.sink, h.written⟩, hc.data' call _ _ hcall h.start⟩

/-- What is read of a collection is the same in another order. -/
theorem alike_readAll (collection : String) (selection : Selection)
    (read : Record → Except Failure α) :
    Alike (Level R s₀)
      (fun a b => a.Perm b ∧
        ∃ a₀, answered g.client collection selection read s₀ = .ok a₀ ∧ a₀.Perm b)
      (g.readAll collection selection read)
      ((g.withClient c').readAll collection selection read) := by
  refine .bind (alike_ask hc (.query collection selection) rfl) ?_
  intro records records' hab
  obtain ⟨hperm, records₀, hrecords₀, hperm₀⟩ := hab
  refine alike_settle ?_
  have hanswered : answered g.client collection selection read s₀ = records₀.mapM read := by
    unfold answered
    rw [hrecords₀]
    rfl
  rw [hanswered]
  exact (Agree.mapM_of_perm hperm).both (Agree.mapM_of_perm hperm₀)

/-! ## Lists -/

/-- The values of the same roots are read in any order of the roots. Each client answers as the
other one would, so neither has to keep step with the other. -/
theorem alike_readValues {l l' : List ListNode} (h : l.Perm l')
    (hids : ∀ values,
      (l.mapM fun root => answeredNodes g.client (valuesBelow root) s₀) = .ok values →
        (values.flatten.map ListNode.id).Nodup) :
    Alike (Level R s₀)
      (fun a b => a.flatten.Perm b.flatten ∧ (a.flatten.map ListNode.id).Nodup)
      (l.mapM fun root => g.readNodes (valuesBelow root))
      (l'.mapM fun root => (g.withClient c').readNodes (valuesBelow root)) := by
  intro p q hlevel
  -- the first run against the second client, which stays where it is
  have hfirst : ∀ filter, Gives (fun p : Progress σ τ => R p.client q.client) List.Perm
      (g.readNodes filter) (answeredNodes c' filter q.client) := by
    refine gives_readNodes (fun _ _ hp => ?_) fun _ _ hp => ?_
    · exact hc.data _ _ _ rfl hp
    · exact hc.answers (.query ..) _ _ hp
  obtain ⟨hresult, hclient⟩ := Gives.mapM (fun root => hfirst (valuesBelow root)) l p hlevel.client
  have hquiet : Run.Quiet (l.mapM fun root => g.readNodes (valuesBelow root)) :=
    .mapM (fun _ => quiet_readAll g _ _ _) l
  have hquiet' : Run.Quiet (l'.mapM fun root => (g.withClient c').readNodes (valuesBelow root)) :=
    .mapM (fun _ => quiet_readAll _ _ _ _) l'
  obtain ⟨hsink, hwritten⟩ := hquiet p
  obtain ⟨hsink', hwritten'⟩ := hquiet' q
  generalize (l.mapM fun root => g.readNodes (valuesBelow root)) p = end₁ at *
  -- the second run against the first client at the start of the session
  have hsecond : ∀ filter, Gives
      (fun q : Progress σ' τ => R end₁.2.client q.client ∧ R s₀ q.client) List.Perm
      ((g.withClient c').readNodes filter) (answeredNodes g.client filter s₀) := by
    refine gives_readNodes (fun _ _ hq => ?_) fun _ _ hq => ?_
    · exact ⟨hc.data' _ _ _ rfl hq.1, hc.data' _ _ _ rfl hq.2⟩
    · exact (hc.answers (.query ..) _ _ hq.2).symm.imp fun _ _ _ _ hperm => List.Perm.symm hperm
  obtain ⟨hresult', hclient', hstart'⟩ :=
    Gives.mapM (fun root => hsecond (valuesBelow root)) l' q ⟨hclient, hlevel.start⟩
  have hroots : Agree (List.Forall₂ List.Perm)
      (l.mapM fun root => answeredNodes g.client (valuesBelow root) s₀)
      (l.mapM fun root => answeredNodes c' (valuesBelow root) q.client) :=
    Agree.mapM l fun root _ => (hc.answers (.query ..) _ _ hlevel.start).bind
      fun _ _ hperm => Agree.mapM_of_perm hperm
  refine ⟨?_, ⟨⟨hclient', ?_, ?_⟩, hstart'⟩⟩
  · refine (agree_flatten_of_perm h hresult hroots hresult').imp fun a b _ _ hab => ?_
    obtain ⟨hperm, values, hvalues, hsame⟩ := hab
    exact ⟨hperm, (hsame.map ListNode.id).nodup_iff.mpr (hids values hvalues)⟩
  · exact hsink.trans (hlevel.sink.trans hsink'.symm)
  · exact hwritten.trans (hlevel.written.trans hwritten'.symm)

/-- The lists that are made of it are the same. -/
theorem alike_readLists (hd : Apart g.client s₀) :
    Alike (Level R s₀) (· = ·) g.readLists (g.withClient c').readLists := by
  refine .bind (alike_readAll hc _ _ _) ?_
  intro roots roots' hab
  obtain ⟨hperm, roots₀, hroots₀, hperm₀⟩ := hab
  have hat : rootsAt g.client s₀ = roots₀ := by
    unfold rootsAt answeredNodes
    rw [hroots₀]
    rfl
  have hroots : roots.Perm (rootsAt g.client s₀) := by
    rw [hat]
    exact hperm.trans hperm₀.symm
  -- ids are told apart among roots and among values, each on their own
  have hnodes := hd.nodes
  rw [List.map_append, List.nodup_append] at hnodes
  have hids : (roots.map ListNode.id).Nodup := (hroots.map _).nodup_iff.mpr hnodes.1
  have hnames : (roots.filterMap ListNode.logicalName).Nodup :=
    (hroots.filterMap _).nodup_iff.mpr hd.logicalNames
  have hwanted := hperm.filter fun root => !g.settings.ignoredLists.contains root.id
  refine .bind (alike_readValues hc hwanted ?_) ?_
  · intro values hvalues
    rw [flatten_eq_flatMap hvalues]
    -- the values of wanted roots are some of all values, whose ids differ
    have hsub := (List.filter_sublist
      (p := fun root : ListNode => !g.settings.ignoredLists.contains root.id)
      (l := roots)).flatMap (valuesAt g.client s₀)
    refine List.Nodup.sublist (hsub.map ListNode.id) ?_
    exact ((hroots.flatMap_right _).map _).nodup_iff.mpr hnodes.2.1
  · intro values values' hab
    obtain ⟨hvalues, hvalueIds⟩ := hab
    exact .pure (Lists.build_eq_of_perm _ hperm hids hnames hvalues hvalueIds)

/-! ## Phases, types and fields -/

/-- The phases are, group by group. -/
theorem alike_readPhases (hd : Apart g.client s₀) :
    Alike (Level R s₀) (fun a b => a.groups = b.groups) g.readPhases
      (g.withClient c').readPhases := by
  refine .bind (alike_readAll hc _ _ _) ?_
  intro phases phases' hab
  obtain ⟨hperm, phases₀, hphases₀, hperm₀⟩ := hab
  have hids := hd.phases
  unfold phasesAt at hids
  rw [hphases₀] at hids
  refine .pure (Phases.groups_merge_eq_of_perm hperm ?_)
  exact ((hperm.trans hperm₀.symm).map _).nodup_iff.mpr hids

/-- The fields of an entity type come in another order, under names that differ. -/
theorem alike_askFields (hd : Apart g.client s₀) (entity : String) :
    Alike (Level R s₀) (fun a b => a.Perm b ∧ (a.map Field.name).Nodup)
      (g.ask (.fields entity)) ((g.withClient c').ask (.fields entity)) := by
  refine (alike_ask hc (.fields entity) rfl).imp ?_
  intro fields fields' hab
  obtain ⟨hperm, fields₀, hfields₀, hperm₀⟩ := hab
  have hperm' : fields.Perm fields₀ := List.Perm.trans hperm (List.Perm.symm hperm₀)
  exact ⟨hperm, (hperm'.map _).nodup_iff.mpr (hd.fields entity fields₀ hfields₀)⟩

/-- The same entity type but for the order of its fields, which have different names if the type is
`work_item_root`: its fields are read before the catalog, those of all others after it. -/
def Listed (a b : Entity) : Prop :=
  SameType a b ∧ (a.name = workItemRoot → (a.fields.map Field.name).Nodup)

omit hc in
theorem forall₂_listed {types types' : List Entity} (h : List.Forall₂ SameType types types') :
    List.Forall₂ Listed (types.filter fun e => e.name ≠ workItemRoot)
      (types'.filter fun e => e.name ≠ workItemRoot) := by
  have hother : ∀ a b : Entity, SameType a b →
      decide (a.name ≠ workItemRoot) = decide (b.name ≠ workItemRoot) := by
    intro a b hab
    rw [hab.name_eq]
  have hnot : ∀ e ∈ types.filter fun e => e.name ≠ workItemRoot, e.name ≠ workItemRoot := by
    intro e he
    exact of_decide_eq_true (List.mem_filter.mp he).2
  exact ((List.forall₂_and_left _ _).mpr ⟨hnot, forall₂_filter hother h⟩).imp
    fun a b hab => ⟨hab.2, fun heq => absurd heq hab.1⟩

theorem alike_readWorkItemRoot (hd : ∀ s s', R s s' → Apart g.client s) :
    Alike (Even R) Listed g.readWorkItemRoot (g.withClient c').readWorkItemRoot := by
  refine .bind (alike_session hc (.signIn _ _) rfl) fun _ _ _ => ?_
  have htype : Alike (Even R) SameType (g.ask (.entityType workItemRoot))
      ((g.withClient c').ask (.entityType workItemRoot)) :=
    alike_of_level fun _ _ _ => (alike_ask hc (.entityType workItemRoot) rfl).imp fun _ _ h => h.1
  refine .bind htype fun root root' hroot => ?_
  refine .bind (alike_of_level fun s₀ s' h => alike_askFields hc (hd s₀ s' h) workItemRoot) ?_
  intro fields fields' hab
  obtain ⟨hperm, hnames⟩ := hab
  refine .bind (alike_signOut hc) fun _ _ _ => .pure ⟨⟨?_, hperm⟩, fun _ => hnames⟩
  rw [hroot.eq_withFields]
  rfl

/-- The catalogs know the same types with the same edges. -/
theorem alike_readCatalog (hd : Apart g.client s₀) {root root' : Entity}
    (hroot : Listed root root') :
    Alike (Level R s₀) (Catalog.Alike Listed) (g.readCatalog root)
      ((g.withClient c').readCatalog root') := by
  refine .bind (alike_ask hc .entityTypes rfl) ?_
  intro types types' hab
  obtain ⟨⟨moved, hmoved, hsame⟩, types₀, htypes₀, moved₀, hmoved₀, hsame₀⟩ := hab
  have hname : ∀ l r : List Entity, List.Forall₂ SameType l r →
      l.map Entity.name = r.map Entity.name := by
    intro l r h
    exact map_eq_of_forall₂ (f := Entity.name) (g := Entity.name) (fun _ _ hab => hab.name_eq) h
  -- the names differ at the start of the session, and so do those of any later answer
  have hnames : (types.map Entity.name).Nodup := by
    have hperm := hmoved.map Entity.name
    rw [hname _ _ hsame, ← hname _ _ hsame₀] at hperm
    exact (hperm.trans (hmoved₀.map Entity.name).symm).nodup_iff.mpr (hd.types types₀ htypes₀)
  refine .pure (Catalog.alike_ofList (fun _ _ h => h.1) (hnames.sublist (List.filter_sublist.map _))
    (hmoved.filter _) (forall₂_listed hsame) hroot)

/-- An entity type gets the same fields in another order. -/
theorem alike_readFields (hd : Apart g.client s₀) {a b : Entity} (h : Listed a b) :
    Alike (Level R s₀) (fun a b => SameType a b ∧ (a.fields.map Field.name).Nodup)
      (g.readFields a) ((g.withClient c').readFields b) := by
  have hname : b.name = a.name := h.1.name_eq.symm
  unfold readFields
  -- the root type brings its fields along, all others are asked for theirs now
  by_cases hroot : a.name = workItemRoot
  · rw [if_pos hroot, if_pos (hname.trans hroot)]
    exact .pure ⟨h.1, h.2 hroot⟩
  · rw [if_neg hroot, if_neg (hname ▸ hroot), hname]
    refine .bind (alike_askFields hc hd a.name) ?_
    intro fields fields' hab
    obtain ⟨hperm, hnames⟩ := hab
    refine .pure ⟨⟨?_, hperm⟩, hnames⟩
    rw [h.1.eq_withFields]
    rfl

end Server

/-! ## Writing -/

/-- Even runs write a source alike: neither rendering nor the files depend on the client. -/
theorem alike_emit (source : Source) :
    Alike (Level R s₀) (fun _ _ => True) (g.emit source) ((g.withClient c').emit source) := by
  refine .bind (alike_settle (Agree.refl _)) ?_
  intro text text' heq
  subst heq
  intro p q hlevel
  show Agree _ (g.put source text p).1 ((g.withClient c').put source text q).1 ∧ _
  unfold put
  have hfile : (g.withClient c').sink ((g.withClient c').fileOf source) text q.sink
      = g.sink (g.fileOf source) text p.sink := by
    rw [hlevel.sink]
    rfl
  rw [hfile]
  rcases g.sink (g.fileOf source) text p.sink with ⟨_ | _, sink⟩
  · exact ⟨.error, ⟨⟨hlevel.client, rfl, hlevel.written⟩, hlevel.start⟩⟩
  · refine ⟨.ok trivial, ⟨⟨hlevel.client, rfl, ?_⟩, hlevel.start⟩⟩
    show p.written ++ [source] = q.written ++ [source]
    rw [hlevel.written]

/-- The same sources are rendered and put away. -/
theorem alike_emitAll (sources : List Source) :
    Alike (Level R s₀) (fun _ _ => True) (sources.forM g.emit)
      (sources.forM (g.withClient c').emit) := by
  refine .forM (P := (· = ·)) (List.forall₂_same.mpr fun _ _ => rfl) ?_
  intro source source' heq
  subst heq
  exact alike_emit source

section Server

variable (hc : SameServer g.client c' R) (hd : Apart g.client s₀)
include hc hd

/-- An entity type has the same sources, since they do not depend on the order of its fields. -/
theorem alike_writeEntity {r r' : Resolver} (hr : r.Alike r') {a b : Entity} (h : Listed a b) :
    Alike (Level R s₀) (fun _ _ => True) (g.writeEntity r a)
      ((g.withClient c').writeEntity r' b) := by
  refine .bind (alike_readFields hc hd h) ?_
  intro a' b' hab
  obtain ⟨hsame, hnames⟩ := hab
  have hsources : g.package.entitySources r a' = (g.withClient c').package.entitySources r' b' :=
    Package.entitySources_eq g.package hr hsame hnames
  -- from here on both runs hold the same sources and go the same way
  rw [hsources]
  refine .bind (alike_settle (Agree.refl _)) ?_
  intro sources sources' heq
  subst heq
  exact alike_emitAll sources

/-- All entity types are written in the same order. -/
theorem alike_writeCatalog {catalog catalog' : Catalog}
    (h : Catalog.Alike Listed catalog catalog') :
    Alike (Level R s₀) (· = ·) (g.writeCatalog catalog)
      ((g.withClient c').writeCatalog catalog') := by
  refine .bind (alike_readLists hc hd) ?_
  intro lists lists' heq
  subst heq
  refine .bind (alike_readPhases hc hd) fun phases phases' hphases => ?_
  refine .bind (.forM (P := (· = ·)) (List.forall₂_same.mpr fun _ _ => rfl) ?_) fun _ _ _ => ?_
  · intro list list' heq
    subst heq
    exact alike_emit _
  -- the phases may come in another order, but they make the same groups
  have hsource : g.package.phasesSource phases
      = (g.withClient c').package.phasesSource phases' := by
    unfold Package.phasesSource
    rw [hphases]
    rfl
  rw [hsource]
  refine .bind (alike_emit _) fun _ _ _ => ?_
  have hr : Resolver.Alike ⟨catalog, lists.logicalNames, phases.keys⟩
      ⟨catalog', lists.logicalNames, phases'.keys⟩ :=
    ⟨h.names_eq, h.edges, rfl, Phases.keys_eq_of_groups_eq hphases⟩
  have hgenerated : List.Forall₂ Listed
      (catalog.entities.values.filter fun e => !isExcluded e.name)
      (catalog'.entities.values.filter fun e => !isExcluded e.name) := by
    refine forall₂_filter (fun a b hab => ?_) h.entities.values
    rw [hab.1.name_eq]
  refine .bind (.forM hgenerated fun a b hab => alike_writeEntity hc hd hr hab) fun _ _ _ => ?_
  -- the report reads what was written, which is the same on both sides
  have hget : Alike (Level R s₀) (fun p q => p.written = q.written)
      (get : Run σ τ (Progress σ τ)) (get : Run σ' τ (Progress σ' τ)) :=
    fun p q hlevel => ⟨.ok hlevel.written, hlevel⟩
  refine .bind hget fun p q hwritten => .pure ?_
  rw [hwritten, h.names_eq, Phases.size_eq_of_groups_eq hphases]
  rfl

omit hd in
/-- A whole run goes the same way. -/
theorem alike_generate (hd : ∀ s s', R s s' → Apart g.client s) :
    Alike (Even R) (· = ·) g.generate (g.withClient c').generate := by
  refine .bind (alike_readWorkItemRoot hc hd) fun root root' hroot => ?_
  refine .bind (alike_session hc (.signIn _ _) rfl) fun _ _ _ => ?_
  refine .bind (alike_of_level fun s₀ s' h => alike_readCatalog hc (hd s₀ s' h) hroot) ?_
  intro catalog catalog' hcatalog
  refine .bind (alike_of_level fun s₀ s' h => alike_writeCatalog hc (hd s₀ s' h) hcatalog) ?_
  intro report report' heq
  subst heq
  exact .bind (alike_signOut hc) fun _ _ _ => .pure rfl

end Server

/-- **The order in which a server lists things has no bearing on a run.** Two clients that give the
same answers but for the order of what they list, and list what can be told apart, lead to two runs
that both fail or both end well with the same report. Either way the same files were written, to
whatever sink. -/
theorem start_alike (hc : SameServer g.client c' R) (hd : ∀ s s', R s s' → Apart g.client s)
    {s : σ} {s' : σ'} (h : R s s') (sink : τ) :
    Agree (· = ·) (g.start s sink).1 ((g.withClient c').start s' sink).1
      ∧ (g.start s sink).2.sink = ((g.withClient c').start s' sink).2.sink := by
  obtain ⟨hresult, heven⟩ := alike_generate hc hd ⟨s, sink, [], []⟩ ⟨s', sink, [], []⟩ ⟨h, rfl, rfl⟩
  exact ⟨hresult, heven.sink⟩

/-! ## A workspace listed backwards -/

/-- The answers of a workspace with two of everything that is listed. Both lists have the same name,
and so have the values of each. -/
def crowdedAnswer : (call : Call) → call.Answer
  | .signIn .. => ()
  | .signOut => ()
  | .entityTypes => [Entity.named "defect", Entity.named "story"]
  | .entityType name => Entity.named name
  | .fields _ => [Field.plain "name" .string, Field.plain "author" .memo]
  | .query collection ⟨_, filter⟩ =>
    let node (id name : String) (more : String × Json) : Record :=
      ⟨[("activity_level", .ofNat 0), ("id", .text id), more, ("name", .text name)]⟩
    let phase (id : String) : Record :=
      ⟨[("entity", .text "defect"), ("id", .text id), ("name", .text "New")]⟩
    if collection = "phases" then [phase "p", phase "q"]
    else match filter with
    | some (.all (.equal _ (.nested (.equal _ (.text root))) :: _)) =>
      let below : String × Json := ("list_root", .object [("id", .text root)])
      [node (root ++ "1") "High" below, node (root ++ "2") "High" below]
    | _ => [node "l" "Severity" ("logical_name", .text "severities"),
        node "m" "Severity" ("logical_name", .text "priorities")]

/-- An answer that lists everything backwards. -/
def backwards : (call : Call) → call.Answer → call.Answer
  | .signIn .., a => a
  | .signOut, a => a
  | .entityTypes, a => a.reverse
  | .entityType _, a => a
  | .fields _, a => a.reverse
  | .query .., a => a.reverse

/-- A generator against the workspace with two of everything. -/
def crowded : Generator Unit MemoryFiles where
  settings := { (default : Settings) with package := "sdk" }
  client := fun call s => (.ok (crowdedAnswer call), s)
  render := fun kind _ => .ok kind.templateName
  sink := MemoryFiles.sink

/-- What the server lists has names and ids that differ. -/
theorem apart_crowded : Apart crowded.client () where
  types := by
    intro types htypes
    cases htypes
    decide
  fields := by
    intro entity fields hfields
    cases hfields
    show ["name", "author"].Nodup
    decide
  nodes := by decide +kernel
  logicalNames := by decide +kernel
  phases := by decide +kernel

/-- A server that answers everything the other way round is the same server in another order. -/
theorem sameServer_backwards (answer : (call : Call) → call.Answer) :
    SameServer (fun call s => (.ok (answer call), s))
      (fun call s => (.ok (backwards call (answer call)), s)) (fun _ _ : Unit => True) where
  answers := by
    intro call s s' _
    refine .ok ?_
    cases call with
    | signIn => trivial
    | signOut => trivial
    | entityTypes =>
      exact ⟨_, (List.reverse_perm _).symm, List.forall₂_same.mpr fun e _ => SameType.refl e⟩
    | entityType => exact SameType.refl _
    | fields => exact (List.reverse_perm _).symm
    | query => exact (List.reverse_perm _).symm
  session := fun _ _ _ _ _ => trivial
  data := fun _ _ _ _ _ => trivial
  data' := fun _ _ _ _ _ => trivial

theorem start_crowded_alike :
    let other := crowded.withClient fun call s => (.ok (backwards call (crowdedAnswer call)), s)
    Agree (· = ·) (crowded.start () .empty).1 (other.start () .empty).1
      ∧ (crowded.start () .empty).2.sink = (other.start () .empty).2.sink :=
  start_alike (sameServer_backwards crowdedAnswer) (fun _ _ _ => apart_crowded) trivial .empty

end Generator

end TypedEntities
