import Mathlib
import TypedEntities.Proofs.Generation.Run
import TypedEntities.Proofs.Outcome

/-!
# Runs as sequences of deeds

A run is a sequence of deeds: it asks the client, reads what was answered, makes sources and writes
them. Which deed comes next depends on what the client has answered, and on nothing else. So from a
state of the client the whole sequence is known beforehand, the *plan* of the run, by asking the
client in turn what the run would ask it. A plan is carried out deed by deed, and the first deed
that fails is the last one.

`Follows` says of a piece of a run that it does the same as carrying out a plan. It is shown of each
piece with rules for the steps, for one piece after another and for loops. What a plan does to the
client, to the calls and to the sources written is then a matter of lists: `carryOut_ok` for the run
that ends well and `carryOut_error` for the run that is cut short.
-/

namespace TypedEntities

open TypedEntities.Metadata

variable {σ τ α β γ : Type}

/-! ## Clients in turn -/

/-- Something of the kind that the answer to a call has, where there is no answer. -/
def Call.noAnswer : (call : Call) → call.Answer
  | .signIn .. => ()
  | .signOut => ()
  | .entityTypes => []
  | .entityType _ => default
  | .fields _ => []
  | .query .. => []

namespace Client

/-- The state of a client after calls. -/
def after (c : Client σ) (s : σ) (calls : List Call) : σ := calls.foldl (fun s call => (c call s).2) s

/-- What a client tells in a state. -/
def tells (c : Client σ) (s : σ) (call : Call) : call.Answer :=
  (c call s).1.toOption.getD call.noAnswer

variable {c : Client σ} {s : σ}

theorem after_append (c : Client σ) (s : σ) (calls calls' : List Call) :
    c.after s (calls ++ calls') = c.after (c.after s calls) calls' :=
  List.foldl_append

/-- What a client answers is what it tells. -/
theorem tells_eq_of_ok {call : Call} {answer : call.Answer} (h : (c call s).1 = .ok answer) :
    c.tells s call = answer := by
  unfold tells
  rw [h]
  rfl

/-- A call that is answered is answered with what is told. -/
theorem ok_tells {call : Call} (h : ∃ answer, (c call s).1 = .ok answer) :
    (c call s).1 = .ok (c.tells s call) := by
  obtain ⟨answer, hanswer⟩ := h
  rw [tells_eq_of_ok hanswer]
  exact hanswer

end Client

/-! ## Deeds -/

/-- A step of a run. -/
inductive Deed
  /-- A call that has to be answered, as all are but a sign-out. -/
  | ask (call : Call) (h : call ≠ .signOut := by nofun)
  /-- The end of a session, whether or not the client agrees. -/
  | leave
  | readNodes (records : List Record)
  | readPhases (records : List Record)
  /-- The sources of an entity type. -/
  | make (r : Resolver) (entity : Entity)
  /-- Rendering a source and writing it. -/
  | emit (source : Source)

namespace Deed

/-- The call that a deed makes. -/
def call? : Deed → Option Call
  | ask call _ => some call
  | leave => some .signOut
  | readNodes _ | readPhases _ | make .. | emit _ => none

/-- The source that a deed writes. -/
def source? : Deed → Option Source
  | emit source => some source
  | ask .. | leave | readNodes _ | readPhases _ | make .. => none

/-- The calls that a plan makes. -/
def calls (plan : List Deed) : List Call := plan.filterMap call?

/-- The sources that a plan writes. -/
def sources (plan : List Deed) : List Source := plan.filterMap source?

@[simp] theorem calls_nil : calls [] = [] := rfl

@[simp] theorem calls_append (plan plan' : List Deed) :
    calls (plan ++ plan') = calls plan ++ calls plan' := List.filterMap_append

@[simp] theorem sources_append (plan plan' : List Deed) :
    sources (plan ++ plan') = sources plan ++ sources plan' := List.filterMap_append

theorem calls_cons (deed : Deed) (plan : List Deed) :
    calls (deed :: plan) = deed.call?.toList ++ calls plan := by
  cases deed <;> rfl

theorem sources_cons (deed : Deed) (plan : List Deed) :
    sources (deed :: plan) = deed.source?.toList ++ sources plan := by
  cases deed <;> rfl

/-- A plan that writes and does no more makes no calls. -/
@[simp] theorem calls_map_emit (l : List α) (f : α → Source) :
    calls (l.map fun a => .emit (f a)) = [] := by
  rw [calls, List.filterMap_map]
  exact List.filterMap_eq_nil_iff.mpr fun _ _ => rfl

@[simp] theorem sources_map_emit (l : List α) (f : α → Source) :
    sources (l.map fun a => .emit (f a)) = l.map f := by
  rw [sources, List.filterMap_map]
  exact congrFun (List.filterMap_eq_map (f := f)) l

end Deed

namespace Generator

open Deed (calls sources)

variable {g : Generator σ τ} {p q : Progress σ τ} {plan plan' : List Deed}

/-! ## Carrying out a plan -/

/-- Does a deed. -/
def perform (g : Generator σ τ) : Deed → Run σ τ Unit
  | .ask call _ => g.ask call >>= fun _ => pure ()
  | .leave => g.signOut
  | .readNodes records => settle ((records.mapM Record.listNode).map fun _ => ())
  | .readPhases records => settle ((records.mapM Record.phase).map fun _ => ())
  | .make r entity => settle ((g.package.entitySources r entity).map fun _ => ())
  | .emit source => g.emit source

/-- Does the deeds of a plan one after the other. -/
def carryOut (g : Generator σ τ) (plan : List Deed) : Run σ τ Unit := plan.forM g.perform

theorem carryOut_append (g : Generator σ τ) (plan plan' : List Deed) :
    g.carryOut (plan ++ plan') = g.carryOut plan >>= fun _ => g.carryOut plan' := by
  unfold carryOut
  exact List.forM_append ..

theorem perform_ask (g : Generator σ τ) {call : Call} (h : call ≠ .signOut) (p : Progress σ τ) :
    g.perform (.ask call h) p = ((g.ask call p).1.map fun _ => (), (g.ask call p).2) := by
  show (g.ask call >>= fun _ => pure ()) p = _
  rw [Run.bind_apply]
  cases hask : g.ask call p with
  | mk result q => cases result <;> rfl

/-- Writing a source leaves the client and the calls alone. -/
theorem emit_frame (g : Generator σ τ) (source : Source) (p : Progress σ τ) :
    (g.emit source p).2.client = p.client ∧ (g.emit source p).2.calls = p.calls := by
  have hput : ∀ text, (g.put source text p).2.client = p.client
      ∧ (g.put source text p).2.calls = p.calls := by
    intro text
    unfold put
    split <;> exact ⟨rfl, rfl⟩
  unfold emit
  rw [Run.bind_apply]
  cases hrender : g.render source.kind source.context with
  | error f => exact ⟨rfl, rfl⟩
  | ok text => exact hput text

/-- A deed moves the client by its call, however it ends. -/
theorem perform_client (g : Generator σ τ) (deed : Deed) (p : Progress σ τ) :
    (g.perform deed p).2.client = g.client.after p.client deed.call?.toList := by
  cases deed with
  | ask call hcall =>
    rw [perform_ask]
    rfl
  | emit source => exact (emit_frame g source p).1
  | leave | readNodes | readPhases | make => rfl

/-- The call of a deed is made, however it ends. -/
theorem perform_calls (g : Generator σ τ) (deed : Deed) (p : Progress σ τ) :
    (g.perform deed p).2.calls = p.calls ++ deed.call?.toList := by
  cases deed with
  | ask call hcall =>
    rw [perform_ask]
    rfl
  | emit source => exact (emit_frame g source p).2.trans (List.append_nil _).symm
  | leave => rfl
  | readNodes | readPhases | make => exact (List.append_nil _).symm

theorem perform_written {deed : Deed} (h : g.perform deed p = (.ok (), q)) :
    q.written = p.written ++ deed.source?.toList := by
  cases deed with
  | emit source => exact emit_ok h
  | ask call hcall =>
    rw [perform_ask] at h
    obtain rfl := congrArg Prod.snd h
    exact (List.append_nil _).symm
  | leave | readNodes | readPhases | make =>
    obtain rfl := congrArg Prod.snd h
    exact (List.append_nil _).symm

/-- What a plan that was carried out to its end has done. -/
theorem carryOut_ok (h : g.carryOut plan p = (.ok (), q)) :
    q.client = g.client.after p.client (calls plan) ∧ q.calls = p.calls ++ calls plan
      ∧ q.written = p.written ++ sources plan := by
  induction plan generalizing p with
  | nil =>
    cases h
    exact ⟨rfl, (List.append_nil _).symm, (List.append_nil _).symm⟩
  | cons deed plan ih =>
    obtain ⟨⟨⟩, m, hdeed, hrest⟩ :=
      Run.bind_eq_ok (x := g.perform deed) (f := fun _ => g.carryOut plan) h
    have hclient := perform_client g deed p
    have hcalls := perform_calls g deed p
    rw [hdeed] at hclient hcalls
    obtain ⟨hq, hqcalls, hqwritten⟩ := ih hrest
    rw [Deed.calls_cons, Deed.sources_cons, Client.after_append]
    refine ⟨?_, ?_, ?_⟩
    · rw [hq, hclient]
    · rw [hqcalls, hcalls, List.append_assoc]
    · rw [hqwritten, perform_written hdeed, List.append_assoc]

/-- A plan that is not carried out to its end is cut short at the first deed that fails. -/
theorem carryOut_error {f : Failure} (h : g.carryOut plan p = (.error f, q)) :
    ∃ before deed rest m, plan = before ++ deed :: rest ∧ g.carryOut before p = (.ok (), m)
      ∧ g.perform deed m = (.error f, q) := by
  induction plan generalizing p with
  | nil => cases h
  | cons deed plan ih =>
    have hbind : (g.perform deed >>= fun _ => g.carryOut plan) p = (.error f, q) := h
    rw [Run.bind_apply] at hbind
    cases hdeed : g.perform deed p with
    | mk result m =>
      rw [hdeed] at hbind
      cases result with
      | error f' => exact ⟨[], deed, plan, p, rfl, rfl, hdeed.trans hbind⟩
      | ok u =>
        obtain ⟨before, deed', rest, m', rfl, hbefore, hdeed'⟩ := ih hbind
        -- the first deed was done, so it goes before those that were done after it
        refine ⟨deed :: before, deed', rest, m', rfl, ?_, hdeed'⟩
        show (g.perform deed >>= fun _ => g.carryOut before) p = _
        rw [Run.bind_apply, hdeed]
        exact hbefore

/-- The calls of a plan that is cut short are those up to the deed that fails, and its own. -/
theorem calls_of_cut {f : Failure} {before : List Deed} {deed : Deed} {m : Progress σ τ}
    (hbefore : g.carryOut before p = (.ok (), m)) (hdeed : g.perform deed m = (.error f, q)) :
    q.calls = p.calls ++ calls (before ++ [deed]) := by
  have hcalls := perform_calls g deed m
  rw [hdeed, (carryOut_ok hbefore).2.1, List.append_assoc] at hcalls
  rw [hcalls, Deed.calls_append, Deed.calls_cons, Deed.calls_nil, List.append_nil]

/-- Every call of a plan that was carried out to its end was answered, in the state that the calls
before have led to; only a sign-out may have failed. -/
theorem carryOut_answered (h : g.carryOut plan p = (.ok (), q)) {before after : List Call}
    {call : Call} (hsplit : calls plan = before ++ call :: after) (hcall : call ≠ .signOut) :
    ∃ answer, (g.client call (g.client.after p.client before)).1 = .ok answer := by
  induction plan generalizing p before with
  | nil => exact absurd hsplit (by simp)
  | cons deed plan ih =>
    obtain ⟨⟨⟩, m, hdeed, hrest⟩ :=
      Run.bind_eq_ok (x := g.perform deed) (f := fun _ => g.carryOut plan) h
    have hclient := perform_client g deed p
    rw [hdeed] at hclient
    rw [Deed.calls_cons] at hsplit
    cases hdeedCall : deed.call? with
    | none =>
      -- a deed that calls nothing leaves the client where it was
      rw [hdeedCall] at hsplit hclient
      have := ih hrest hsplit
      rwa [hclient] at this
    | some first =>
      rw [hdeedCall] at hsplit hclient
      cases before with
      | cons _ before =>
        -- the call belongs to a later deed
        obtain ⟨rfl, hsplit'⟩ := List.cons_eq_cons.mp hsplit
        have := ih hrest hsplit'
        rwa [hclient] at this
      | nil =>
        -- this deed makes the call, and it went well
        obtain ⟨rfl, -⟩ := List.cons_eq_cons.mp hsplit
        cases deed with
        | ask call _ =>
          obtain rfl : call = first := Option.some.inj hdeedCall
          rw [perform_ask] at hdeed
          obtain ⟨answer, hanswer, -⟩ := Outcome.map_eq_ok.mp (congrArg Prod.fst hdeed)
          exact ⟨answer, hanswer⟩
        | leave => exact absurd (Option.some.inj hdeedCall).symm hcall
        | readNodes | readPhases | make | emit => cases hdeedCall

/-- Every deed of a plan that was carried out to its end was done. -/
theorem perform_ok_of_mem (h : g.carryOut plan p = (.ok (), q)) {deed : Deed} (hdeed : deed ∈ plan) :
    ∃ m m', g.perform deed m = (.ok (), m') := by
  induction plan generalizing p with
  | nil => cases hdeed
  | cons first plan ih =>
    obtain ⟨⟨⟩, m, hfirst, hrest⟩ :=
      Run.bind_eq_ok (x := g.perform first) (f := fun _ => g.carryOut plan) h
    rcases List.mem_cons.mp hdeed with rfl | hdeed
    · exact ⟨p, m, hfirst⟩
    · exact ih hrest hdeed

/-! ## What the sink is handed -/

/-- What becomes of a sink that is handed texts for the files of sources. -/
def handOver (g : Generator σ τ) (sink : τ) (handed : List (Source × String)) : τ :=
  handed.foldl (fun t h => (g.sink (g.fileOf h.1) h.2 t).2) sink

/-- From one point of a run to another the sink was handed these texts: renderings of the first of
the given sources, in their order, and among them are all that were written. -/
structure Handed (g : Generator σ τ) (sources : List Source) (p q : Progress σ τ)
    (handed : List (Source × String)) : Prop where
  inOrder : handed.map Prod.fst <+: sources
  rendered : ∀ h ∈ handed, g.render h.1.kind h.1.context = .ok h.2
  sink_eq : q.sink = g.handOver p.sink handed
  written : q.written <+: p.written ++ handed.map Prod.fst

theorem handed_nil {sources : List Source} (hsink : q.sink = p.sink)
    (hwritten : q.written = p.written) : g.Handed sources p q [] :=
  ⟨List.nil_prefix, nofun, hsink, by rw [hwritten]; exact List.prefix_append _ _⟩

theorem put_handed {source : Source} {text : String} {result : Except Failure Unit}
    (h : g.put source text p = (result, q)) :
    q.sink = g.handOver p.sink [(source, text)] ∧ q.written <+: p.written ++ [source] := by
  unfold put at h
  show q.sink = (g.sink (g.fileOf source) text p.sink).2 ∧ _
  split at h
  next sink hwrite =>
    cases h
    rw [hwrite]
    exact ⟨rfl, List.prefix_rfl⟩
  next f sink hwrite =>
    cases h
    rw [hwrite]
    exact ⟨rfl, List.prefix_append _ _⟩

/-- A deed hands over the text of its source, if it gets as far as that. -/
theorem perform_handed {deed : Deed} {result : Except Failure Unit}
    (h : g.perform deed p = (result, q)) :
    ∃ handed, g.Handed deed.source?.toList p q handed
      ∧ (result = .ok () → handed.map Prod.fst = deed.source?.toList) := by
  cases deed with
  | ask call hcall =>
    rw [perform_ask] at h
    obtain rfl := congrArg Prod.snd h
    exact ⟨[], handed_nil rfl rfl, fun _ => rfl⟩
  | leave | readNodes | readPhases | make =>
    obtain rfl := congrArg Prod.snd h
    exact ⟨[], handed_nil rfl rfl, fun _ => rfl⟩
  | emit source =>
    have hemit : g.emit source p = (result, q) := h
    unfold emit at hemit
    rw [Run.bind_apply] at hemit
    cases hrender : g.render source.kind source.context with
    | error f =>
      rw [hrender] at hemit
      cases hemit
      -- what cannot be rendered is not handed over
      exact ⟨[], handed_nil rfl rfl, nofun⟩
    | ok text =>
      rw [hrender] at hemit
      obtain ⟨hsink, hwritten⟩ := put_handed hemit
      refine ⟨[(source, text)], ⟨List.prefix_rfl, ?_, hsink, hwritten⟩, fun _ => rfl⟩
      intro x hx
      obtain rfl := List.mem_singleton.mp hx
      exact hrender

/-- **What a plan hands to the sink**, however it ends: renderings of its sources in their order, of
all of them if it is carried out to its end. -/
theorem carryOut_handed {result : Except Failure Unit} (h : g.carryOut plan p = (result, q)) :
    ∃ handed, g.Handed (sources plan) p q handed
      ∧ (result = .ok () → handed.map Prod.fst = sources plan) := by
  induction plan generalizing p with
  | nil =>
    cases h
    exact ⟨[], handed_nil rfl rfl, fun _ => rfl⟩
  | cons deed plan ih =>
    have hbind : (g.perform deed >>= fun _ => g.carryOut plan) p = (result, q) := h
    rw [Run.bind_apply] at hbind
    rw [Deed.sources_cons]
    cases hdeed : g.perform deed p with
    | mk first m =>
      obtain ⟨handed, hhanded, hall⟩ := perform_handed hdeed
      rw [hdeed] at hbind
      cases first with
      | error f =>
        cases hbind
        exact ⟨handed, ⟨hhanded.inOrder.trans (List.prefix_append _ _), hhanded.rendered,
          hhanded.sink_eq, hhanded.written⟩, nofun⟩
      | ok u =>
        -- this deed was done, so what it hands over comes before all the rest
        obtain ⟨later, hlater, hlaterAll⟩ := ih hbind
        have hfirst := hall rfl
        refine ⟨handed ++ later, ⟨?_, ?_, ?_, ?_⟩, fun hok => ?_⟩
        · rw [List.map_append, hfirst]
          exact (List.prefix_append_right_inj _).mpr hlater.inOrder
        · intro x hx
          rcases List.mem_append.mp hx with hx | hx
          · exact hhanded.rendered x hx
          · exact hlater.rendered x hx
        · rw [handOver, List.foldl_append, hlater.sink_eq, hhanded.sink_eq]
          rfl
        · have hwritten := hlater.written
          rwa [perform_written hdeed, ← hfirst, List.append_assoc, ← List.map_append] at hwritten
        · rw [List.map_append, hfirst, hlaterAll hok]

/-! ## Faults -/

/-- Why a deed can fail: a call is refused, what was answered cannot be read, an entity type has no
model, or a source cannot be rendered or written. The end of a session is not among them. -/
inductive Fault (g : Generator σ τ) (p : Progress σ τ) : Deed → Failure → Prop
  | refused {call : Call} {hcall : call ≠ .signOut} {f : Failure}
    (h : (g.client call p.client).1 = .error f) : Fault g p (.ask call hcall) f
  | nodes {records : List Record} {f : Failure} (h : records.mapM Record.listNode = .error f) :
    Fault g p (.readNodes records) f
  | phases {records : List Record} {f : Failure} (h : records.mapM Record.phase = .error f) :
    Fault g p (.readPhases records) f
  | metadata {r : Resolver} {entity : Entity} {f : Failure}
    (h : g.package.entitySources r entity = .error f) : Fault g p (.make r entity) f
  | rendering {source : Source} {f : Failure} (h : g.render source.kind source.context = .error f) :
    Fault g p (.emit source) f
  | writing {source : Source} {text : String} {f : Failure}
    (hrender : g.render source.kind source.context = .ok text)
    (h : (g.sink (g.fileOf source) text p.sink).1 = .error f) : Fault g p (.emit source) f

theorem fault_of_emit {source : Source} {f : Failure} (h : g.emit source p = (.error f, q)) :
    g.Fault p (.emit source) f := by
  unfold emit at h
  rw [Run.bind_apply] at h
  cases hrender : g.render source.kind source.context with
  | error f' =>
    rw [hrender] at h
    obtain rfl : f' = f := by simpa [settle] using congrArg Prod.fst h
    exact .rendering hrender
  | ok text =>
    rw [hrender] at h
    have hput : g.put source text p = (.error f, q) := h
    refine .writing hrender ?_
    unfold put at hput
    split at hput
    next => cases hput
    next f' sink hsink =>
      cases hput
      rw [hsink]

/-- A deed fails for one of these reasons. -/
theorem fault_of_perform {deed : Deed} {f : Failure} (h : g.perform deed p = (.error f, q)) :
    g.Fault p deed f := by
  cases deed with
  | ask call hcall =>
    rw [perform_ask] at h
    exact .refused (Outcome.map_eq_error.mp (congrArg Prod.fst h))
  | leave => cases congrArg Prod.fst h
  | readNodes records => exact .nodes (Outcome.map_eq_error.mp (congrArg Prod.fst h))
  | readPhases records => exact .phases (Outcome.map_eq_error.mp (congrArg Prod.fst h))
  | make r entity => exact .metadata (Outcome.map_eq_error.mp (congrArg Prod.fst h))
  | emit source => exact fault_of_emit h

/-! ## Following a plan -/

/-- From a state of the client, with these sources written, a piece of a run does what carrying out
a plan does; if it ends well, it comes to the given result. -/
def Follows (g : Generator σ τ) (s : σ) (written : List Source) (x : Run σ τ α) (plan : List Deed)
    (a : α) : Prop :=
  ∀ p, p.client = s → p.written = written → x p = (g.carryOut plan >>= fun _ => pure a) p

variable {s : σ} {w : List Source} {x : Run σ τ α} {a : α}

theorem follows_pure (a : α) : g.Follows s w (pure a) [] a := fun _ _ _ => rfl

theorem Follows.bind {f : α → Run σ τ β} {b : β} (hx : g.Follows s w x plan a)
    (hf : g.Follows (g.client.after s (calls plan)) (w ++ sources plan) (f a) plan' b) :
    g.Follows s w (x >>= f) (plan ++ plan') b := by
  rintro p rfl rfl
  rw [Run.bind_apply, hx p rfl rfl, carryOut_append, bind_assoc, Run.bind_apply, Run.bind_apply]
  cases hplan : g.carryOut plan p with
  | mk result q =>
    cases result with
    | error f => rfl
    | ok u =>
      obtain ⟨hclient, -, hwritten⟩ := carryOut_ok hplan
      exact hf q hclient hwritten

/-- The last step of a piece makes its result of what was read. -/
theorem Follows.map {f : α → β} (hx : g.Follows s w x plan a) :
    g.Follows s w (x >>= fun a => pure (f a)) plan (f a) := by
  have h := hx.bind (f := fun a => pure (f a)) (follows_pure (f a))
  rwa [List.append_nil] at h

theorem follows_ask (call : Call) (h : call ≠ .signOut := by nofun) :
    g.Follows s w (g.ask call) [.ask call h] (g.client.tells s call) := by
  rintro p rfl rfl
  show _ = ((g.perform (.ask call h) >>= fun _ => pure ()) >>= fun _ => pure _) p
  rw [bind_assoc, Run.bind_apply, perform_ask]
  cases hask : g.client call p.client with
  | mk result s' =>
    have hresult : g.ask call p = (result, ⟨s', p.sink, p.calls ++ [call], p.written⟩) := by
      unfold ask
      rw [hask]
    rw [hresult]
    cases result with
    | error f => rfl
    | ok answer =>
      -- an answer is what the client tells in its state
      have htells : g.client.tells p.client call = answer :=
        Client.tells_eq_of_ok (by rw [hask])
      rw [htells]
      rfl

/-- A deed follows itself. -/
theorem follows_perform (deed : Deed) : g.Follows s w (g.perform deed) [deed] () := by
  intro p _ _
  show _ = ((g.perform deed >>= fun _ => pure ()) >>= fun _ => pure ()) p
  rw [bind_assoc]
  exact (congrFun (bind_pure _) p).symm

/-- A result that is there already is settled with by the deed that looks for it. -/
theorem follows_settle {deed : Deed} {result : Except Failure α} (d : α)
    (h : g.perform deed = settle (result.map fun _ => ())) :
    g.Follows s w (settle result) [deed] (result.toOption.getD d) := by
  rintro p rfl rfl
  show _ = ((g.perform deed >>= fun _ => pure ()) >>= fun _ => pure _) p
  rw [bind_assoc, Run.bind_apply, h]
  cases result <;> rfl

/-! ## Loops -/

/-- The deeds for every entry of a list, one after the other. -/
def each (g : Generator σ τ) (plan : σ → α → List Deed) : σ → List α → List Deed
  | _, [] => []
  | s, a :: l => plan s a ++ each g plan (g.client.after s (calls (plan s a))) l

/-- What comes of every entry of a list on the way. -/
def toldEach (g : Generator σ τ) (plan : σ → α → List Deed) (told : σ → α → β) : σ → List α → List β
  | _, [] => []
  | s, a :: l => told s a :: toldEach g plan told (g.client.after s (calls (plan s a))) l

variable {each_plan : σ → α → List Deed} {told : σ → α → β} {f : α → Run σ τ β}

theorem Follows.mapM (hf : ∀ s w a, g.Follows s w (f a) (each_plan s a) (told s a)) (l : List α) :
    g.Follows s w (l.mapM f) (g.each each_plan s l) (g.toldEach each_plan told s l) := by
  induction l generalizing s w with
  | nil => exact follows_pure []
  | cons a l ih =>
    rw [List.mapM_cons]
    exact .bind (hf s w a) (.map ih)

theorem Follows.forM {f : α → Run σ τ Unit} (hf : ∀ s w a, g.Follows s w (f a) (each_plan s a) ())
    (l : List α) : g.Follows s w (l.forM f) (g.each each_plan s l) () := by
  induction l generalizing s w with
  | nil => exact follows_pure ()
  | cons a l ih => exact .bind (f := fun _ => l.forM f) (hf s w a) ih

/-- A loop that writes one source in each round. -/
theorem follows_forM_emit (source : α → Source) (l : List α) :
    g.Follows s w (l.forM fun a => g.emit (source a)) (l.map fun a => .emit (source a)) () := by
  have hloop : g.carryOut (l.map fun a => .emit (source a)) = l.forM fun a => g.emit (source a) := by
    unfold carryOut
    rw [List.forM_eq_forM, List.forM_map]
    rfl
  intro p _ _
  rw [hloop]
  exact (congrFun (bind_pure _) p).symm

/-- A deed of a loop is a deed of one of its rounds. -/
theorem exists_of_mem_each {l : List α} {deed : Deed} (h : deed ∈ g.each each_plan s l) :
    ∃ a ∈ l, ∃ s', deed ∈ each_plan s' a := by
  induction l generalizing s with
  | nil => cases h
  | cons a l ih =>
    rcases List.mem_append.mp h with h | h
    · exact ⟨a, List.mem_cons_self .., s, h⟩
    · obtain ⟨b, hb, s', h⟩ := ih h
      exact ⟨b, List.mem_cons_of_mem _ hb, s', h⟩

/-- A loop makes the calls of its rounds, if these do not depend on the state. -/
theorem calls_each {callsOf : α → List Call} (h : ∀ s a, calls (each_plan s a) = callsOf a) (s : σ)
    (l : List α) : calls (g.each each_plan s l) = l.flatMap callsOf := by
  induction l generalizing s with
  | nil => rfl
  | cons a l ih => rw [each, Deed.calls_append, h, ih, List.flatMap_cons]

end Generator

end TypedEntities
