import Mathlib
import TypedEntities.Proofs.Catalog
import TypedEntities.Proofs.Generation.Plan

/-!
# The protocol of sessions

A run asks the server in a fixed order: `Generator.script`. First it reads `work_item_root` in a
session of the technical preview, then everything else in a session of the mode that the settings
ask for. `Protocol` says what a run keeps of the script, however it ends: its calls are a prefix,
which is cut short only by a fault of the deed that comes next, and a failing sign-out is not one.
From the script follows in which session a question can stand. The payoff is `start_protocol`.
-/

namespace TypedEntities

open TypedEntities.Metadata
open Deed (calls sources)

variable {σ τ α : Type}

/-! ## Calls between sessions -/

/-- The same client, but for how it answers a sign-out. -/
def Client.leaving (c : Client σ) (answer : σ → Except Failure Unit) : Client σ
  | .signOut, s => (answer s, (c .signOut s).2)
  | call, s => c call s

/-- After these calls a session with these credentials is open: the last call that opens or closes
one is a sign-in that the client has answered. -/
def InSession (c : Client σ) (s : σ) (credentials : Credentials) (mode : ApiMode)
    (before : List Call) : Prop :=
  ∃ outside inside, before = outside ++ .signIn credentials mode :: inside
    ∧ (∀ call ∈ inside, call.isSession = false)
    ∧ (c (.signIn credentials mode) (c.after s outside)).1 = .ok ()

/-- Where a question stands among those of one session: there, or after the session. -/
theorem split_questions {questions rest before after : List Call} {last call : Call}
    (hlast : last.isSession = true) (hcall : call.isSession = false)
    (h : before ++ call :: after = questions ++ last :: rest) :
    (∃ others, questions = before ++ call :: others)
      ∨ ∃ between, before = questions ++ last :: between ∧ rest = between ++ call :: after := by
  -- the last call cannot be the call in question, so that stands before or behind it
  have hne : last ≠ call := by
    rintro rfl
    rw [hlast] at hcall
    cases hcall
  rcases List.append_eq_append_iff.mp h with ⟨others, hquestions, hrest⟩ | ⟨between, hbefore, hrest⟩
  · cases others with
    | nil => exact absurd (List.cons_eq_cons.mp hrest).1.symm hne
    | cons first others =>
      obtain ⟨rfl, -⟩ := List.cons_eq_cons.mp hrest
      exact .inl ⟨others, hquestions⟩
  · cases between with
    | nil => exact absurd (List.cons_eq_cons.mp hrest).1 hne
    | cons first between =>
      obtain ⟨rfl, hrest'⟩ := List.cons_eq_cons.mp hrest
      exact .inr ⟨between, hbefore, hrest'⟩

namespace Generator

variable {g : Generator σ τ} {s : σ}

/-! ## The script -/

/-- The questions of the first session. -/
def rootQuestions : List Call := [.entityType workItemRoot, .fields workItemRoot]

/-- The entity types whose fields are asked for, in ascending order. -/
def asked (g : Generator σ τ) (s : σ) : List String :=
  (g.toldCatalog s).names.filter fun name => !isExcluded name && name ≠ workItemRoot

/-- The questions of the second session: the entity types, the roots of lists, the values of each
root that is not ignored, the phases, and the fields of each entity type that gets a model. -/
def questions (g : Generator σ τ) (s : σ) : List Call :=
  .entityTypes :: nodesCall activeRoots
    :: (g.wanted (g.pastTypes s)).map (fun root => nodesCall (valuesBelow root))
    ++ phasesCall :: (g.asked s).map .fields

/-- All calls of a run, from a state of the client. -/
def script (g : Generator σ τ) (s : σ) : List Call :=
  g.previewSignIn :: (rootQuestions ++ .signOut :: g.mainSignIn :: (g.questions s ++ [.signOut]))

/-- The fields of `work_item_root` are there already, so they are not asked for again. -/
theorem calls_entityPlan (r : Resolver) (s : σ) (entity : Entity) :
    calls (g.entityPlan r s entity)
      = if entity.name = workItemRoot then [] else [.fields entity.name] := by
  have hmap := Deed.calls_map_emit (g.madeSources r (g.toldEntity s entity)) id
  unfold entityPlan fieldsPlan
  rw [Deed.calls_append, Deed.calls_cons]
  split
  next => exact hmap
  next => exact congrArg (List.cons (.fields entity.name)) hmap

/-- What every entry but some gives one of. -/
theorem flatMap_ite_nil {β : Type} (l : List α) (p : α → Prop) [DecidablePred p] (f : α → β) :
    (l.flatMap fun a => if p a then [] else [f a]) = (l.filter fun a => ¬ p a).map f := by
  induction l with
  | nil => rfl
  | cons a l ih =>
    rw [List.flatMap_cons, ih]
    by_cases h : p a <;> simp [h]

/-- Fields are asked for along the names of the catalog. -/
theorem flatMap_fieldsCalls (types : List Entity) :
    (((Catalog.ofList types).entities.values.filter fun e => !isExcluded e.name).flatMap fun e =>
        if e.name = workItemRoot then [] else [Call.fields e.name])
      = ((Catalog.ofList types).names.filter fun name =>
          !isExcluded name && name ≠ workItemRoot).map .fields := by
  rw [flatMap_ite_nil _ (fun e : Entity => e.name = workItemRoot) fun e => Call.fields e.name,
    Catalog.filter_names_ofList, List.map_map, List.filter_filter]
  refine congrArg (List.map _) (List.filter_congr fun e _ => ?_)
  rw [Bool.and_comm]

/-- The plan of the lists asks for the roots and then for the values of each that is wanted. -/
theorem calls_listsPlan (s : σ) :
    calls (g.listsPlan s)
      = nodesCall activeRoots :: (g.wanted s).map fun root => nodesCall (valuesBelow root) := by
  have hvalues : ∀ s root, calls (g.valuesPlan s root) = [nodesCall (valuesBelow root)] :=
    fun _ _ => rfl
  unfold listsPlan
  rw [Deed.calls_append, calls_each hvalues, ← List.map_eq_flatMap]
  rfl

/-- The plan of what is written asks for fields only. -/
theorem calls_writePlan (s s' : σ) :
    calls (g.writePlan s (g.told s')) = (g.asked s').map .fields := by
  unfold writePlan
  rw [Deed.calls_append, Deed.calls_map_emit, Deed.calls_cons, calls_each (calls_entityPlan _)]
  exact flatMap_fieldsCalls _

/-- A plan makes the calls of the script. -/
theorem calls_plan (g : Generator σ τ) (s : σ) : calls (g.plan s) = g.script s := by
  have hwrite : calls (g.writePlan (g.pastPhases (g.pastTypes s))
      (g.knowledge (g.pastTypes s) (g.toldCatalog s))) = (g.asked s).map .fields :=
    calls_writePlan _ s
  unfold plan catalogPlan
  simp only [Deed.calls_append, Deed.calls_cons, calls_listsPlan, hwrite]
  rfl

theorem isSession_of_mem_rootQuestions {call : Call} (h : call ∈ rootQuestions) :
    call.isSession = false := by
  fin_cases h <;> rfl

theorem isSession_of_mem_questions {call : Call} (h : call ∈ g.questions s) :
    call.isSession = false := by
  unfold questions at h
  simp only [List.cons_append, List.mem_cons, List.mem_append, List.mem_map] at h
  rcases h with rfl | rfl | ⟨root, -, rfl⟩ | rfl | ⟨name, -, rfl⟩ <;> rfl

/-! ## Positions in the script -/

/-- A question of calls that keep to the script stands in the first session or in the second. -/
theorem question_of_keep {before after : List Call} {call : Call}
    (hpart : before ++ call :: after <+: g.script s) (hcall : call.isSession = false) :
    (∃ inside others, before = g.previewSignIn :: inside ∧ rootQuestions = inside ++ call :: others)
      ∨ ∃ inside others,
        before = (g.previewSignIn :: rootQuestions ++ [.signOut]) ++ g.mainSignIn :: inside
        ∧ g.questions s = inside ++ call :: others := by
  obtain ⟨rest, h⟩ := hpart
  rw [List.append_assoc, List.cons_append, eq_comm, script] at h
  cases before with
  | nil =>
    obtain ⟨rfl, -⟩ := List.cons_eq_cons.mp h
    cases hcall
  | cons first before =>
    obtain ⟨rfl, h'⟩ := List.cons_eq_cons.mp h
    rcases split_questions rfl hcall h'.symm with ⟨others, hothers⟩ | ⟨between, rfl, hbetween⟩
    · exact .inl ⟨before, others, rfl, hothers⟩
    · -- the second session begins with its sign-in and ends with the last call
      cases between with
      | nil =>
        obtain ⟨rfl, -⟩ := List.cons_eq_cons.mp hbetween
        cases hcall
      | cons second between =>
        obtain ⟨rfl, hrest⟩ := List.cons_eq_cons.mp hbetween
        rcases split_questions rfl hcall hrest.symm with ⟨others, hothers⟩ | ⟨later, -, hlater⟩
        · exact .inr ⟨between, others, by simp, hothers⟩
        · exact absurd hlater (by simp)

/-! ## Sign-outs that fail -/

/-- How the client answers sign-outs makes no difference to a run: no step looks at it. -/
theorem start_leaving (g : Generator σ τ) (answer : σ → Except Failure Unit) (s : σ) (sink : τ) :
    (g.withClient (g.client.leaving answer)).start s sink = g.start s sink := rfl

/-! ## Answers -/

/-- A call before the last one of calls that may end in one more stands before it. -/
theorem exists_split_of_toList {l before after : List Call} {last : Option Call} {call : Call}
    (h : l ++ last.toList = before ++ call :: after) (hafter : after ≠ []) :
    ∃ others, l = before ++ call :: others := by
  cases last with
  | none => exact ⟨after, by rw [← h, Option.toList_none, List.append_nil]⟩
  | some last =>
    obtain ⟨others, last', rfl⟩ := (List.eq_nil_or_concat' after).resolve_left hafter
    have hsplit : l ++ [last] = (before ++ call :: others) ++ [last'] := by
      rw [List.append_assoc, List.cons_append]
      exact h
    exact ⟨others, (List.append_inj' hsplit rfl).1⟩

/-- Every call of a run but the last one was answered, unless it is a sign-out; so was the last one
if the run ended well. -/
theorem start_answered {sink : τ} {result : Except Failure Report} {q : Progress σ τ}
    (h : g.start s sink = (result, q)) {before after : List Call} {call : Call}
    (hsplit : q.calls = before ++ call :: after) (hcall : call ≠ .signOut)
    (hlater : after ≠ [] ∨ result.isOk = true) :
    ∃ answer, (g.client call (g.client.after s before)).1 = .ok answer := by
  cases result with
  | ok report =>
    obtain ⟨hplan, -⟩ := start_carryOut_ok h
    have hcalls := (carryOut_ok hplan).2.1
    rw [List.nil_append] at hcalls
    exact carryOut_answered hplan (hcalls.symm.trans hsplit) hcall
  | error f =>
    have hafter : after ≠ [] := hlater.resolve_right nofun
    obtain ⟨done, deed, rest, m, -, hdone, hdeed⟩ := carryOut_error (start_carryOut_error h)
    have hcalls := calls_of_cut hdone hdeed
    rw [List.nil_append, Deed.calls_append, Deed.calls_cons, Deed.calls_nil, List.append_nil]
      at hcalls
    obtain ⟨others, hothers⟩ := exists_split_of_toList (hcalls.symm.trans hsplit) hafter
    exact carryOut_answered hdone hothers hcall

/-- The calls of a run are a prefix of the script. -/
theorem start_calls_keep (g : Generator σ τ) (s : σ) (sink : τ) :
    (g.start s sink).2.calls <+: g.script s := by
  rw [← calls_plan]
  cases h : g.start s sink with
  | mk result q =>
    cases result with
    | ok report =>
      rw [(carryOut_ok (start_carryOut_ok h).1).2.1]
      exact List.prefix_rfl
    | error f =>
      obtain ⟨before, deed, rest, m, hplan, hbefore, hdeed⟩ :=
        carryOut_error (start_carryOut_error h)
      rw [calls_of_cut hbefore hdeed, hplan]
      refine ⟨calls rest, ?_⟩
      show calls (before ++ [deed]) ++ calls rest = _
      rw [← Deed.calls_append, List.append_assoc, List.singleton_append]

/-- A run that ends well has made all calls of the script. -/
theorem start_calls_eq_script {sink : τ} {report : Report} {q : Progress σ τ}
    (h : g.start s sink = (.ok report, q)) : q.calls = g.script s := by
  rw [(carryOut_ok (start_carryOut_ok h).1).2.1, calls_plan, List.nil_append]

/-! ## The main theorem -/

/-- **What a run keeps of the protocol**, from a state of the client and of the sink to the end that
it comes to. -/
structure Protocol (g : Generator σ τ) (s : σ) (sink : τ)
    (outcome : Except Failure Report × Progress σ τ) : Prop where
  plan_calls : calls (g.plan s) = g.script s
  asked_ascending : (g.asked s).Pairwise (· < ·)
  inOrder : outcome.2.calls <+: g.script s
  complete : ∀ report, outcome.1 = .ok report → outcome.2.calls = g.script s
  /-- A run that fails has done all deeds of its plan up to the first one with a fault. -/
  cut : ∀ f, outcome.1 = .error f → ∃ before deed rest m, g.plan s = before ++ deed :: rest
    ∧ g.carryOut before ⟨s, sink, [], []⟩ = (.ok (), m) ∧ g.Fault m deed f
    ∧ outcome.2.calls = calls (before ++ [deed])
  answered : ∀ before call after, outcome.2.calls = before ++ call :: after → after ≠ [] →
    call ≠ .signOut → ∃ answer, (g.client call (g.client.after s before)).1 = .ok answer
  signOut_ignored : ∀ answer,
    (g.withClient (g.client.leaving answer)).start s sink = outcome
  inSession : ∀ before call after, outcome.2.calls = before ++ call :: after →
    call.isSession = false → ∃ mode, InSession g.client s g.settings.credentials mode before
  /-- The first session is the only one that asks for an entity type or for the fields of
  `work_item_root`. -/
  root_inPreview : ∀ before call after, outcome.2.calls = before ++ call :: after →
    ((∃ name, call = .entityType name) ∨ call = .fields workItemRoot) →
    ∃ inside, before = .signIn g.settings.credentials .technicalPreview :: inside
      ∧ ∀ question ∈ inside, question.isSession = false
  not_excluded : ∀ entity, .fields entity ∈ outcome.2.calls → isExcluded entity = false
  last_signOut : ∀ report, outcome.1 = .ok report → outcome.2.calls.getLast? = some .signOut

theorem isExcluded_of_fields_mem_script {entity : String} (h : .fields entity ∈ g.script s) :
    isExcluded entity = false := by
  simp only [script, rootQuestions, questions, previewSignIn, mainSignIn, nodesCall, phasesCall,
    asked, List.mem_cons, List.mem_append, List.mem_map, List.mem_filter, reduceCtorEq,
    Call.fields.injEq, List.not_mem_nil, and_false, exists_false, exists_eq_right, false_or,
    or_false, Bool.and_eq_true, Bool.not_eq_true'] at h
  rcases h with rfl | ⟨-, hexcluded, -⟩
  · decide
  · exact hexcluded

/-- The second session asks for no single entity type and not for the fields of `work_item_root`. -/
theorem notMem_questions {call : Call}
    (h : (∃ name, call = .entityType name) ∨ call = .fields workItemRoot) :
    call ∉ g.questions s := by
  rcases h with ⟨name, rfl⟩ | rfl <;>
    simp [questions, nodesCall, phasesCall, asked]

/-- **A run keeps to the protocol of sessions**, whatever the client answers and refuses and whatever
can be rendered and written. -/
theorem start_protocol (g : Generator σ τ) (s : σ) (sink : τ) :
    g.Protocol s sink (g.start s sink) := by
  have hpart := start_calls_keep g s sink
  have hcomplete : ∀ report, (g.start s sink).1 = .ok report →
      (g.start s sink).2.calls = g.script s := by
    intro report hreport
    exact start_calls_eq_script (Prod.ext hreport rfl)
  -- a run goes on behind a call only if it was answered, unless it was a sign-out
  have hanswered : ∀ before call after, (g.start s sink).2.calls = before ++ call :: after →
      after ≠ [] → call ≠ .signOut →
      ∃ answer, (g.client call (g.client.after s before)).1 = .ok answer := by
    intro before call after hsplit hafter hcall
    exact start_answered (Prod.ext rfl rfl) hsplit hcall (.inl hafter)
  constructor
  case plan_calls => exact calls_plan g s
  case asked_ascending => exact (g.toldCatalog s).entities.ascending.filter _
  case inOrder => exact hpart
  case complete => exact hcomplete
  case cut =>
    intro f hf
    obtain ⟨before, deed, rest, m, hplan, hbefore, hdeed⟩ :=
      carryOut_error (start_carryOut_error (Prod.ext hf rfl))
    exact ⟨before, deed, rest, m, hplan, hbefore, fault_of_perform hdeed,
      calls_of_cut hbefore hdeed⟩
  case answered => exact hanswered
  case signOut_ignored => exact fun answer => start_leaving g answer s sink
  case inSession =>
    intro before call after hsplit hcall
    rcases question_of_keep (hsplit ▸ hpart) hcall with
      ⟨inside, others, rfl, hothers⟩ | ⟨inside, others, rfl, hothers⟩
    · -- a call of the first session, with the sign-in at the very beginning
      refine ⟨.technicalPreview, [], inside, rfl, fun question hmem => ?_, ?_⟩
      · exact isSession_of_mem_rootQuestions (hothers ▸ List.mem_append_left _ hmem)
      · obtain ⟨⟨⟩, hok⟩ := hanswered [] g.previewSignIn _ hsplit (by simp)
          (by simp [previewSignIn])
        exact hok
    · -- a call of the second session, with the calls of the first before its sign-in
      refine ⟨g.settings.apiMode, _, inside, rfl, fun question hmem => ?_, ?_⟩
      · exact isSession_of_mem_questions (hothers ▸ List.mem_append_left _ hmem)
      · rw [List.append_assoc] at hsplit
        obtain ⟨⟨⟩, hok⟩ := hanswered _ g.mainSignIn _ hsplit (by simp)
          (by simp [mainSignIn])
        exact hok
  case root_inPreview =>
    intro before call after hsplit hroot
    have hcall : call.isSession = false := by
      rcases hroot with ⟨name, rfl⟩ | rfl <;> rfl
    rcases question_of_keep (hsplit ▸ hpart) hcall with
      ⟨inside, others, rfl, hothers⟩ | ⟨inside, others, rfl, hothers⟩
    · refine ⟨inside, rfl, fun question hmem => ?_⟩
      exact isSession_of_mem_rootQuestions (hothers ▸ List.mem_append_left _ hmem)
    · -- the second session has no such question
      refine absurd ?_ (notMem_questions (g := g) (s := s) hroot)
      rw [hothers]
      exact List.mem_append_right _ (List.mem_cons_self ..)
  case not_excluded =>
    intro entity hmem
    exact isExcluded_of_fields_mem_script (hpart.subset hmem)
  case last_signOut =>
    intro report hreport
    have hlast : g.script s
        = (g.previewSignIn :: (rootQuestions ++ .signOut :: g.mainSignIn :: g.questions s))
          ++ [.signOut] := by
      simp [script]
    rw [hcomplete report hreport, hlast, List.getLast?_concat]

end Generator

end TypedEntities
