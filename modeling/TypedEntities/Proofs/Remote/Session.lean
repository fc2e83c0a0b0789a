import Mathlib
import TypedEntities.Proofs.Generation.Protocol
import TypedEntities.Proofs.Remote.Paging

/-!
# Headers of a session

The client of a server carries the mode of its session with every request but a sign-in. What a
sequence of calls sends is kept call by call (`Workspace.turns`). A call changes the mode only if it
opens or closes a session and succeeds (`Workspace.client_mode`), so what a call sends shows the mode
of the last sign-in or sign-out that succeeded before it (`Workspace.shows_of_split`).

A run signs in twice, and its second session is in the mode of the settings. Once that has begun no
request shows the technical preview, whether or not the sign-out in between succeeded
(`Workspace.headers_follow`).
-/

namespace TypedEntities

namespace Remote

/-! ## Headers and modes -/

/-- The headers of the technical preview. -/
def previewHeaders : List (String × String) :=
  [("HPECLIENTTYPE", "HPE_REST_API_TECH_PREVIEW"), ("ALM-OCTANE-TECH-PREVIEW", "true")]

/-- A request shows a mode: it carries both headers of the technical preview, or neither. -/
def Request.Shows (r : Request) : ApiMode → Prop
  | .technicalPreview => ∀ header ∈ previewHeaders, header ∈ r.headers
  | .default => ∀ header ∈ r.headers, header.1 ∉ previewHeaders.map Prod.fst

theorem Request.shows_mode (r : Request) : r.Shows r.mode := by
  unfold Shows headers
  cases r.mode with
  | default => exact nofun
  | technicalPreview => exact fun _ h => h

end Remote

/-- The mode in which a call is sent from a session in a mode: a sign-in has its own. -/
def Call.sentIn (call : Call) (mode : ApiMode) : ApiMode :=
  match call with
  | .signIn _ own => own
  | _ => mode

theorem Call.sentIn_default {call : Call}
    (h : ∀ credentials mode, call ≠ .signIn credentials mode) :
    call.sentIn .default = .default := by
  cases call with
  | signIn credentials mode => exact absurd rfl (h credentials mode)
  | _ => rfl

/-- The mode that a call changes to, if it opens or closes a session and succeeds. -/
def Call.mode? (call : Call) (succeeded : Bool) : Option ApiMode :=
  match call, succeeded with
  | .signIn _ mode, true => some mode
  | .signOut, true => some .default
  | _, _ => none

namespace Remote

variable {ω α β : Type}

/-! ## What one call sends -/

theorem recorded_apply (x : Exchange ω) (r : Request) (wire : ω) (log : List (Request × Reply)) :
    x.recorded r (wire, log) = ((x r wire).1, (x r wire).2, log ++ [(r, (x r wire).1)]) := rfl

/-- Something is sent, all of it in one mode, and keeping a record of it changes nothing else. -/
def Records (sentIn : ApiMode → ApiMode) (f : Session ω → α × Session ω)
    (recorded : Session (ω × List (Request × Reply)) → α × Session (ω × List (Request × Reply))) :
    Prop :=
  ∀ mode wire log, ∃ result mode' wire' part, f ⟨mode, wire⟩ = (result, ⟨mode', wire'⟩)
    ∧ recorded ⟨mode, wire, log⟩ = (result, ⟨mode', wire', log ++ part⟩)
    ∧ part ≠ [] ∧ ∀ e ∈ part, e.1.mode = sentIn mode

/-- What is made of a result sends nothing. -/
theorem Records.map {sentIn : ApiMode → ApiMode} {f : Session ω → α × Session ω}
    {recorded : Session (ω × List (Request × Reply)) → α × Session (ω × List (Request × Reply))}
    (h : Records sentIn f recorded) (make : α → β) :
    Records sentIn (fun s => (make (f s).1, (f s).2))
      fun s => (make (recorded s).1, (recorded s).2) := by
  intro mode wire log
  obtain ⟨result, mode', wire', part, hf, hrecorded, hpart⟩ := h mode wire log
  exact ⟨make result, mode', wire', part, by simp only [hf], by simp only [hrecorded], hpart⟩

namespace Workspace

variable (w : Workspace) (x : Exchange ω)

/-- The request that signs in. -/
def signInRequest (credentials : Credentials) (own : ApiMode) : Request where
  method := .post
  url := w.server ++ "/authentication/sign_in"
  parameters := []
  mode := own
  body := some (.object [("client_id", .text credentials.clientId),
    ("client_secret", .text credentials.secret)])

theorem records_signIn (credentials : Credentials) (own : ApiMode) :
    Records (fun _ => own) (w.signIn x credentials own) (w.signIn x.recorded credentials own) := by
  intro mode wire log
  have hrecorded := recorded_apply x (w.signInRequest credentials own) wire log
  cases hx : x (w.signInRequest credentials own) wire with
  | mk reply wire' =>
    rw [hx] at hrecorded
    unfold signInRequest at hx hrecorded
    unfold signIn
    simp only [hx, hrecorded]
    cases reply with
    | none cause => exact ⟨_, _, _, _, rfl, rfl, by simp⟩
    | answer status body =>
      by_cases hstatus : isSuccess status = true
      · simp only [hstatus, if_true]
        exact ⟨_, _, _, _, rfl, rfl, by simp⟩
      · simp only [hstatus]
        exact ⟨_, _, _, _, rfl, rfl, by simp⟩

/-- Sending is kept with the reply that came back. -/
theorem send_recorded (endpoint : String) (r : Request) (wire : ω) (log : List (Request × Reply)) :
    w.send x.recorded endpoint r (wire, log)
      = ((w.send x endpoint r wire).1, (w.send x endpoint r wire).2,
        log ++ [(r, (x r wire).1)]) := by
  unfold send
  rw [recorded_apply]
  cases x r wire with
  | mk reply wire' =>
    cases reply with
    | none cause => rfl
    | answer status body =>
      by_cases hstatus : isSuccess status = true
      · simp only [hstatus, if_true]
      · simp only [hstatus]
        rfl

theorem records_signOut : Records id (w.signOut x) (w.signOut x.recorded) := by
  intro mode wire log
  unfold signOut
  simp only [send_recorded]
  cases w.send x "authentication/sign_out"
      ⟨.post, w.server ++ "/authentication/sign_out", [], mode, none⟩ wire with
  | mk result wire' =>
    cases result with
    | error f => exact ⟨_, _, _, _, rfl, rfl, by simp⟩
    | ok body => exact ⟨_, _, _, _, rfl, rfl, by simp⟩

theorem records_page (item : Json.Decoder α) (path : String) (parameters : List (String × String)) :
    Records id (w.page x item path parameters) (w.page x.recorded item path parameters) := by
  intro mode wire log
  unfold page
  simp only [send_recorded]
  cases w.send x path ⟨.get, w.url path, parameters, mode, none⟩ wire with
  | mk result wire' =>
    cases result with
    | error f => exact ⟨_, _, _, _, rfl, rfl, by simp⟩
    | ok body =>
      simp only
      cases Page.parse? item body with
      | none => exact ⟨_, _, _, _, rfl, rfl, by simp⟩
      | some p => exact ⟨_, _, _, _, rfl, rfl, by simp⟩

theorem records_allFrom (item : Json.Decoder α) (path : String) (selection : Selection)
    (offset : Nat) :
    Records id (w.allFrom x item path selection offset)
      (w.allFrom x.recorded item path selection offset) := by
  intro mode wire log
  obtain ⟨result, wire', part, pages, hplain, hrecorded, hscan⟩ :=
    exists_scan w x item path selection mode offset wire log
  refine ⟨result, mode, wire', part, hplain, hrecorded, ?_, fun e he => ?_⟩
  · cases hscan <;> exact List.cons_ne_nil _ _
  have hrequest := List.mem_map_of_mem (f := Prod.fst) he
  rw [hscan.requests_eq] at hrequest
  obtain ⟨i, -, hi⟩ := List.mem_map.mp hrequest
  rw [← hi]
  rfl

/-- **What a call sends** shows the mode of its session, or that of a sign-in. -/
theorem records_client (call : Call) :
    Records call.sentIn (w.client x call) (w.client x.recorded call) := by
  cases call with
  | signIn credentials mode => exact records_signIn w x credentials mode
  | signOut => exact records_signOut w x
  | entityTypes => exact (records_page w x _ _ _).map _
  | entityType name =>
    exact (records_page w x Metadata.Entity.decode "metadata/entities" (whereEqual "name" name)).map
      fun result => result.bind (named name)
  | fields entity => exact (records_page w x _ _ _).map _
  | query collection selection => exact records_allFrom w x _ _ _ _

/-! ## Modes -/

theorem page_mode (item : Json.Decoder α) (path : String) (parameters : List (String × String))
    (s : Session ω) : (w.page x item path parameters s).2.mode = s.mode := by
  unfold page
  split
  next => rfl
  next => split <;> rfl

theorem allFrom_mode (item : Json.Decoder α) (path : String) (selection : Selection) (offset : Nat)
    (s : Session ω) : (w.allFrom x item path selection offset s).2.mode = s.mode := by
  obtain ⟨result, wire', part, pages, hplain, -⟩ :=
    exists_scan w x item path selection s.mode offset s.wire []
  exact congrArg (fun outcome => outcome.2.mode) hplain

/-- **Only a sign-in or a sign-out that succeeds changes the mode.** -/
theorem client_mode (call : Call) (s : Session ω) :
    (w.client x call s).2.mode = (call.mode? (w.client x call s).1.isOk).getD s.mode := by
  cases call with
  | signIn credentials mode =>
    simp only [client, signIn]
    split
    next => rfl
    next => split <;> rfl
  | signOut =>
    simp only [client, signOut]
    split <;> rfl
  | entityTypes => exact page_mode w x _ _ _ s
  | entityType name => exact page_mode w x Metadata.Entity.decode _ _ s
  | fields entity => exact page_mode w x _ _ _ s
  | query collection selection => exact allFrom_mode w x _ _ _ _ s

/-! ## Turns -/

/-- A call, whether it succeeded, and what was sent for it with what came back. -/
structure Turn where
  call : Call
  succeeded : Bool
  exchanged : List (Request × Reply)

/-- The mode that a turn changes to, if it does. -/
def Turn.mode? (t : Turn) : Option ApiMode := t.call.mode? t.succeeded

/-- The turn of a call. -/
def turn (call : Call) (s : Session ω) : Turn :=
  let (answer, session) := w.client x.recorded call ⟨s.mode, s.wire, []⟩
  ⟨call, answer.isOk, session.wire.2⟩

/-- The turns of calls one after the other. -/
def turns (calls : List Call) (s : Session ω) : List Turn :=
  match calls with
  | [] => []
  | call :: calls => w.turn x call s :: turns calls (w.client x call s).2

/-- The mode after turns: that of the last sign-in or sign-out that succeeded, else the mode before
them. -/
def modeAfter (mode : ApiMode) (turns : List Turn) : ApiMode :=
  (turns.filterMap Turn.mode?).getLast?.getD mode

theorem turn_spec (call : Call) (s : Session ω) :
    (w.turn x call s).call = call ∧ (w.turn x call s).succeeded = (w.client x call s).1.isOk
      ∧ (w.turn x call s).exchanged ≠ []
      ∧ ∀ e ∈ (w.turn x call s).exchanged, e.1.mode = call.sentIn s.mode := by
  obtain ⟨answer, mode', wire', part, hplain, hrecorded, hpart⟩ :=
    records_client w x call s.mode s.wire []
  unfold turn
  rw [hrecorded]
  refine ⟨rfl, ?_, hpart⟩
  rw [show w.client x call s = _ from hplain]

theorem modeAfter_cons (mode : ApiMode) (t : Turn) (ts : List Turn) :
    modeAfter mode (t :: ts) = modeAfter (t.mode?.getD mode) ts := by
  unfold modeAfter
  cases hmode : t.mode? with
  | none => rw [List.filterMap_cons_none hmode, Option.getD_none]
  | some changed =>
    rw [List.filterMap_cons_some hmode, List.getLast?_cons, Option.getD_some, Option.getD_some]

theorem map_call_turns (calls : List Call) (s : Session ω) :
    (w.turns x calls s).map Turn.call = calls := by
  induction calls generalizing s with
  | nil => rfl
  | cons call calls ih => rw [turns, List.map_cons, ih, (turn_spec w x call s).1]

/-- After some turns comes the turn of the next call, from the session that the calls before have led
to, which is in the mode of the last sign-in or sign-out that succeeded. -/
theorem turn_of_split {calls : List Call} {s : Session ω} {before after : List Turn} {t : Turn}
    (h : w.turns x calls s = before ++ t :: after) :
    t = w.turn x t.call ((w.client x).after s (before.map Turn.call))
      ∧ ((w.client x).after s (before.map Turn.call)).mode = modeAfter s.mode before := by
  induction calls generalizing s before with
  | nil => exact absurd h (by simp [turns])
  | cons call calls ih =>
    rw [turns] at h
    cases before with
    | nil =>
      obtain ⟨rfl, -⟩ := List.cons.inj h
      rw [(turn_spec w x call s).1]
      exact ⟨rfl, rfl⟩
    | cons first before =>
      obtain ⟨rfl, hrest⟩ := List.cons.inj h
      obtain ⟨ht, hmode⟩ := ih hrest
      obtain ⟨hcall, hsucceeded, -⟩ := turn_spec w x call s
      -- the first call leads to the state that the others start in
      have hafter : (w.client x).after s ((w.turn x call s :: before).map Turn.call)
          = (w.client x).after (w.client x call s).2 (before.map Turn.call) := by
        rw [List.map_cons, hcall]
        rfl
      rw [hafter, modeAfter_cons, Turn.mode?, hcall, hsucceeded, ← client_mode]
      exact ⟨ht, hmode⟩

/-- **What is sent shows the mode of the last sign-in or sign-out that succeeded**, but for a sign-in,
which shows its own. -/
theorem shows_of_split {calls : List Call} {s : Session ω} {before after : List Turn} {t : Turn}
    (h : w.turns x calls s = before ++ t :: after) {e : Request × Reply} (he : e ∈ t.exchanged) :
    e.1.Shows (t.call.sentIn (modeAfter s.mode before)) := by
  obtain ⟨ht, hmode⟩ := turn_of_split w x h
  rw [ht] at he
  have hsent := (turn_spec w x _ _).2.2.2 e he
  rw [hmode] at hsent
  rw [← hsent]
  exact e.1.shows_mode

/-- A turn that is a sign-in. -/
def Turn.IsSignIn (t : Turn) : Prop := ∃ credentials mode, t.call = .signIn credentials mode

/-- A session that was left for the default mode stays in it until there is a sign-in. -/
theorem modeAfter_eq_default (mode : ApiMode) {before after : List Turn} {t : Turn}
    (ht : t.mode? = some .default) (hafter : ∀ t' ∈ after, ¬t'.IsSignIn) :
    modeAfter mode (before ++ t :: after) = .default := by
  -- the turns after this one can only go back to the default mode, by a sign-out
  have hlater : ∀ t' ∈ after, ∀ changed, t'.mode? = some changed → changed = .default := by
    intro t' ht' changed hchanged
    unfold Turn.mode? at hchanged
    cases hcall : t'.call with
    | signIn credentials own => exact absurd ⟨credentials, own, hcall⟩ (hafter t' ht')
    | signOut =>
      rw [hcall] at hchanged
      cases hsucceeded : t'.succeeded with
      | false =>
        rw [hsucceeded] at hchanged
        cases hchanged
      | true =>
        rw [hsucceeded] at hchanged
        exact (Option.some.inj hchanged).symm
    | entityTypes | entityType | fields | query =>
      rw [hcall] at hchanged
      cases hchanged
  rw [modeAfter, List.filterMap_append, List.filterMap_cons_some ht]
  obtain ⟨last, hlast⟩ := Option.isSome_iff_exists.mp
    (List.getLast?_isSome.mpr (List.cons_ne_nil ApiMode.default (after.filterMap Turn.mode?)))
  rw [List.getLast?_append, hlast, Option.some_or, Option.getD_some]
  rcases List.mem_cons.mp (List.mem_of_getLast? hlast) with rfl | hmem
  · rfl
  · obtain ⟨t', ht', hchanged⟩ := List.mem_filterMap.mp hmem
    exact hlater t' ht' last hchanged

end Workspace

end Remote

/-! ## Runs -/

namespace Generator

variable {σ τ : Type} {g : Generator σ τ} {s : σ}

/-- The client at the end of a run is in the state that the calls of the run have led to. -/
theorem client_start (g : Generator σ τ) (s : σ) (sink : τ) :
    (g.start s sink).2.client = g.client.after s (g.start s sink).2.calls := by
  cases h : g.start s sink with
  | mk result q =>
    cases result with
    | ok report =>
      obtain ⟨hclient, hcalls, -⟩ := carryOut_ok (start_carryOut_ok h).1
      rw [hclient, hcalls, List.nil_append]
    | error f =>
      obtain ⟨before, deed, rest, m, -, hbefore, hdeed⟩ := carryOut_error (start_carryOut_error h)
      have hclient := perform_client g deed m
      rw [hdeed, (carryOut_ok hbefore).1, ← Client.after_append] at hclient
      rw [calls_of_cut hbefore hdeed, Deed.calls_append, Deed.calls_cons, Deed.calls_nil,
        List.append_nil, List.nil_append]
      exact hclient

/-- The second sign-in of a run is in the mode of the settings, and no sign-in follows it. -/
theorem second_signIn {before after : List Call} {credentials : Credentials} {mode : ApiMode}
    (hpart : before ++ .signIn credentials mode :: after <+: g.script s) (hfirst : before ≠ []) :
    mode = g.settings.apiMode
      ∧ ∀ call ∈ after, ∀ credentials mode, call ≠ .signIn credentials mode := by
  obtain ⟨rest, h⟩ := hpart
  obtain ⟨first, before, rfl⟩ := List.exists_cons_of_ne_nil hfirst
  -- behind the second sign-in there are questions and a sign-out only
  have hnotSignIn : ∀ call ∈ g.questions s ++ [.signOut], ∀ credentials mode,
      call ≠ .signIn credentials mode := by
    rintro call hcall credentials mode rfl
    rcases List.mem_append.mp hcall with hcall | hcall
    · cases isSession_of_mem_questions hcall
    · cases List.mem_singleton.mp hcall
  rw [List.append_assoc, List.cons_append, List.cons_append, eq_comm, script] at h
  obtain ⟨-, h⟩ := List.cons.inj h
  have hsplit : (rootQuestions ++ [.signOut]) ++ g.mainSignIn :: (g.questions s ++ [.signOut])
      = before ++ .signIn credentials mode :: (after ++ rest) := by
    rw [List.append_assoc]
    exact h
  rw [List.append_cons_inj_of_notMem (by simp [rootQuestions])
    fun hmem => hnotSignIn _ hmem _ _ rfl] at hsplit
  obtain ⟨-, hmain, hafter⟩ := hsplit
  refine ⟨(Call.signIn.inj hmain).2.symm, fun call hcall => ?_⟩
  exact hnotSignIn call (hafter ▸ List.mem_append_left rest hcall)

end Generator

namespace Remote.Workspace

variable {ω τ : Type}

/-- After the second sign-in of a run in the default mode, if it succeeds, nothing is sent that shows
the technical preview. -/
theorem shows_default_of_second_signIn {w : Workspace} {x : Exchange ω} {s : Session ω}
    {g : Generator (Session ω) τ} {sink : τ} (hmode : g.settings.apiMode = .default)
    {before after : List Turn} {t : Turn}
    (h : w.turns x (g.start s sink).2.calls s = before ++ t :: after) (ht : t.IsSignIn)
    (hfirst : before ≠ []) (hsucceeded : t.succeeded = true) :
    ∀ t' ∈ t :: after, ∀ e ∈ t'.exchanged, e.1.Shows .default := by
  obtain ⟨credentials, mode, hcall⟩ := ht
  have hcalls := map_call_turns w x (g.start s sink).2.calls s
  rw [h, List.map_append, List.map_cons, hcall] at hcalls
  obtain ⟨hsettings, hlater⟩ := Generator.second_signIn
    (hcalls ▸ Generator.start_calls_keep g s sink) (by simpa using hfirst)
  obtain rfl : mode = .default := hsettings.trans hmode
  intro t' ht' e he
  rcases List.mem_cons.mp ht' with rfl | ht'
  · -- the sign-in goes out in its own mode
    have hshows := shows_of_split w x h he
    rwa [hcall] at hshows
  · -- no later turn is a sign-in, so the mode stays the default
    obtain ⟨between, others, rfl⟩ := List.append_of_mem ht'
    have hnot : ∀ later ∈ between ++ t' :: others, ¬later.IsSignIn := by
      rintro later hmem ⟨credentials, mode, hsignIn⟩
      exact hlater later.call (List.mem_map_of_mem hmem) credentials mode hsignIn
    have hsplit : w.turns x (g.start s sink).2.calls s
        = (before ++ t :: between) ++ t' :: others := by
      rw [h, List.append_assoc, List.cons_append]
    have hchanged : t.mode? = some .default := by
      rw [Turn.mode?, hcall, hsucceeded]
      rfl
    have hshows := shows_of_split w x hsplit he
    rw [modeAfter_eq_default s.mode hchanged fun later hmem =>
      hnot later (List.mem_append_left _ hmem)] at hshows
    rwa [Call.sentIn_default fun credentials mode hsignIn =>
      hnot t' (by simp) ⟨credentials, mode, hsignIn⟩] at hshows

/-- **Headers follow the session.** Whatever the server answers, a call sends its requests in the mode
of the last sign-in or sign-out that succeeded before it, and a sign-in in its own; only those two
change the mode, and not when they fail. So a run in the default mode shows nothing of the technical
preview once its second session has begun. -/
theorem headers_follow (w : Workspace) (x : Exchange ω) (wire : ω) :
    (∀ calls, (w.turns x calls (start wire)).map Turn.call = calls
        ∧ ∀ before t after, w.turns x calls (start wire) = before ++ t :: after →
          t.succeeded
              = (w.client x t.call ((w.client x).after (start wire) (before.map Turn.call))).1.isOk
            ∧ t.exchanged ≠ []
            ∧ ∀ e ∈ t.exchanged, e.1.Shows (t.call.sentIn (modeAfter .default before)))
      ∧ (∀ call s f, (w.client x call s).1 = .error f → (w.client x call s).2.mode = s.mode)
      ∧ ∀ {τ : Type} (g : Generator (Session ω) τ) (sink : τ), g.client = w.client x →
        g.settings.apiMode = .default →
          (g.start (start wire) sink).2.client
              = (w.client x).after (start wire) (g.start (start wire) sink).2.calls
            ∧ ∀ before t after,
              w.turns x (g.start (start wire) sink).2.calls (start wire) = before ++ t :: after →
              t.IsSignIn → (∃ t' ∈ before, t'.IsSignIn) → t.succeeded = true →
              ∀ t' ∈ t :: after, ∀ e ∈ t'.exchanged, e.1.Shows .default := by
  refine ⟨fun calls => ⟨map_call_turns w x calls _, fun before t after h => ?_⟩,
    fun call s f hf => ?_,
    fun g sink hclient hmode => ⟨?_, fun before t after h ht hfirst hok => ?_⟩⟩
  · obtain ⟨ht, hmode⟩ := turn_of_split w x h
    obtain ⟨-, hsucceeded, hsome, -⟩ :=
      turn_spec w x t.call ((w.client x).after (start wire) (before.map Turn.call))
    rw [← ht] at hsucceeded hsome
    exact ⟨hsucceeded, hsome, fun e he => shows_of_split w x h he⟩
  · rw [client_mode, hf]
    cases call <;> rfl
  · rw [Generator.client_start, hclient]
  · obtain ⟨t', ht', -⟩ := hfirst
    exact shows_default_of_second_signIn hmode h ht (List.ne_nil_of_mem ht') hok

/-! ## A sign-out that fails -/

/-- Gives replies one after the other, whatever is asked. -/
def scripted : Exchange (List Reply) := fun _ replies =>
  match replies with
  | [] => (.none "no reply", [])
  | reply :: rest => (reply, rest)

/-- A server that lets a run in twice and does not let it out in between, and that knows
`work_item_root` only. -/
def stubborn : List Reply :=
  [.answer 200 "", .answer 200 "\x7b\"data\":[\x7b\"name\":\"work_item_root\"\x7d]\x7d",
    .answer 200 "\x7b\"data\":[]\x7d", .answer 500 "", .answer 200 "", .answer 500 ""]

/-- A run in the default mode. -/
def scriptedRun : Generator (Session (List Reply)) Unit where
  settings := default
  client := threeAtATime.client scripted
  render := fun _ _ => .ok ""
  sink := fun _ _ _ => (.ok (), ())

theorem client_entityType_scripted (mode : ApiMode) (rest : List Reply) :
    threeAtATime.client scripted (.entityType workItemRoot)
        ⟨mode, .answer 200 "\x7b\"data\":[\x7b\"name\":\"work_item_root\"\x7d]\x7d" :: rest⟩
      = (.ok ⟨"work_item_root", "", [], []⟩, ⟨mode, rest⟩) := by
  have hpage : Page.parse? Metadata.Entity.decode
      "\x7b\"data\":[\x7b\"name\":\"work_item_root\"\x7d]\x7d"
        = some ⟨none, [⟨"work_item_root", "", [], []⟩]⟩ := by cbv
  simp [client, page, send, scripted, hpage, isSuccess, named, Except.bind, workItemRoot]

theorem client_fields_scripted (mode : ApiMode) (rest : List Reply) :
    threeAtATime.client scripted (.fields workItemRoot)
        ⟨mode, .answer 200 "\x7b\"data\":[]\x7d" :: rest⟩
      = (.ok [], ⟨mode, rest⟩) := by
  have hpage : Page.parse? Metadata.Field.decode "\x7b\"data\":[]\x7d" = some ⟨none, []⟩ := by cbv
  simp [client, page, send, scripted, hpage, isSuccess, items, Except.map]

theorem headers_follow_stubborn :
    let calls := (scriptedRun.start (start stubborn) ()).2.calls
    let turns := threeAtATime.turns scripted calls (start stubborn)
    turns.map Turn.succeeded = [true, true, true, false, true, false]
      ∧ ∀ t ∈ turns.drop 4, ∀ e ∈ t.exchanged, e.1.Shows .default := by
  have hsignIn : ∀ credentials mode mode' rest,
      threeAtATime.client scripted (.signIn credentials mode)
          ⟨mode', .answer 200 "" :: rest⟩
        = (.ok (), ⟨mode, rest⟩) := fun _ _ _ _ => rfl
  have hcalls : (scriptedRun.start (start stubborn) ()).2.calls
      = [.signIn default .technicalPreview, .entityType workItemRoot, .fields workItemRoot, .signOut,
        .signIn default .default, .entityTypes] := by
    simp only [Generator.start, Generator.generate, Generator.readWorkItemRoot, Generator.ask,
      scriptedRun, stubborn, start, Run.bind_apply, hsignIn, client_entityType_scripted,
      client_fields_scripted]
    rfl
  obtain ⟨-, -, hrun⟩ := headers_follow threeAtATime scripted stubborn
  have hshows := (hrun scriptedRun () rfl rfl).2
  intro calls turns
  have hsucceeded : turns.map Turn.succeeded = [true, true, true, false, true, false] := by
    have hturn := fun call s => (turn_spec threeAtATime scripted call s).2.1
    simp only [turns, calls, hcalls, Workspace.turns, List.map_cons, List.map_nil, hturn, start,
      stubborn, hsignIn, client_entityType_scripted, client_fields_scripted]
    rfl
  refine ⟨hsucceeded, ?_⟩
  simp only [turns, calls, hcalls] at hsucceeded hshows ⊢
  refine hshows (List.take 4 _) _ _ (List.take_append_drop 4 _).symm ⟨_, _, rfl⟩
    ⟨_, List.mem_cons_self .., _, _, rfl⟩ ?_
  exact (List.cons.inj (congrArg (List.drop 4) hsucceeded)).1

end Remote.Workspace

end TypedEntities
