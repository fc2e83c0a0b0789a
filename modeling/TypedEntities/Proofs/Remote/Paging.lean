import Mathlib
import TypedEntities.Json.Printer
import TypedEntities.Remote.Client

/-!
# Reading a collection page by page

A collection is read by asking for one page after another, each from where the last one ended. What
is asked and what comes back is kept by `Exchange.recorded`, and `Scan` says step by step what such a
record looks like, whatever the server answers. Two things are read off it by induction: `Course`,
which holds of every server (each request is for the page after all that was received, and it is
only made while pages say that there is more), and completeness for a server that `Serves` a fixed
list. `Workspace.allFrom_course` puts them together.
-/

namespace TypedEntities.Remote

open TypedEntities.Json (Decoder)

variable {ω α : Type}

/-! ## What is sent and what comes back -/

/-- Carries requests as another exchange does, and keeps them with the replies. -/
def Exchange.recorded (x : Exchange ω) : Exchange (ω × List (Request × Reply)) :=
  fun request (wire, log) =>
    let (reply, wire) := x request wire
    (reply, wire, log ++ [(request, reply)])

/-- Whether an exchange can come to a reply to a request. -/
def Exchange.CanReply (x : Exchange ω) (request : Request) (reply : Reply) : Prop :=
  ∃ wire, (x request wire).1 = reply

namespace Workspace

/-- The parameters that do not depend on the page: the fields, the filter and how many items are
asked for. -/
def commonParameters (w : Workspace) (selection : Selection) : List (String × String) :=
  (if selection.fields.isEmpty then [] else [("fields", ",".intercalate selection.fields)])
    ++ (selection.filter.map fun f => ("query", quoted f)).toList
    ++ [("limit", toString w.pageSize)]

/-- The request for the page of a selection at an offset. -/
def pageRequest (w : Workspace) (path : String) (selection : Selection) (mode : ApiMode)
    (offset : Nat) : Request where
  method := .get
  url := w.url path
  parameters := w.commonParameters selection ++ [("offset", toString offset)]
  mode := mode
  body := none

/-- The page that a reply is, or why it is none. -/
def readReply (w : Workspace) (item : Decoder α) (path : String) : Reply → Except Failure (Page α)
  | .none cause => .error (.connection w.server cause)
  | .answer status body =>
    if isSuccess status then
      match Page.parse? item body with
      | some p => .ok p
      | none => .error (undecodable path)
    else .error (.request path status body)

variable {w : Workspace} {x : Exchange ω} {item : Decoder α} {path : String}
  {selection : Selection} {mode : ApiMode}

/-- A page is read from the reply to its request. -/
theorem page_eq {wire wire' : ω} {offset : Nat} {reply : Reply}
    (h : x (w.pageRequest path selection mode offset) wire = (reply, wire')) :
    w.page x item path (w.parameters selection offset) ⟨mode, wire⟩
      = (w.readReply item path reply, ⟨mode, wire'⟩) := by
  -- the offset is put last
  have hparameters : w.parameters selection offset
      = w.commonParameters selection ++ [("offset", toString offset)] := by
    simp only [parameters, commonParameters, List.append_assoc]
    rfl
  have hrequest : (⟨.get, w.url path, w.parameters selection offset, mode, none⟩ : Request)
      = w.pageRequest path selection mode offset := by
    rw [hparameters]
    rfl
  unfold page send
  simp only [hrequest, h]
  cases reply with
  | none cause => rfl
  | answer status body =>
    simp only [readReply]
    by_cases hstatus : isSuccess status = true
    · simp only [hstatus, if_true]
      cases Page.parse? item body <;> rfl
    · simp only [hstatus]
      rfl

/-- Reading goes on after a page that is not the last one, and puts its items in front. -/
theorem allFrom_eq {wire wire' : ω} {offset : Nat} {reply : Reply}
    (h : x (w.pageRequest path selection mode offset) wire = (reply, wire')) :
    w.allFrom x item path selection offset ⟨mode, wire⟩
      = match w.readReply item path reply with
        | .error f => (.error f, ⟨mode, wire'⟩)
        | .ok p =>
          if p.hasMore offset then
            let (rest, s) := w.allFrom x item path selection (offset + p.items.length) ⟨mode, wire'⟩
            (rest.map (p.items ++ ·), s)
          else (.ok p.items, ⟨mode, wire'⟩) := by
  rw [allFrom, page_eq h]
  cases w.readReply item path reply with
  | error f => rfl
  | ok p =>
    simp only
    split
    next =>
      rcases w.allFrom x item path selection (offset + p.items.length) ⟨mode, wire'⟩
        with ⟨_ | _, s⟩ <;> rfl
    next => rfl

/-! ## Scans -/

/-- What reading a collection from an offset on comes to, and the requests and replies on the way. -/
inductive Scan (w : Workspace) (x : Exchange ω) (item : Decoder α) (path : String)
    (selection : Selection) (mode : ApiMode) :
    (offset : Nat) → List (Request × Reply) → List (Page α) → Except Failure (List α) → Prop
  /-- No page comes. -/
  | fails {offset : Nat} {reply : Reply} {f : Failure}
    (hreply : x.CanReply (w.pageRequest path selection mode offset) reply)
    (h : w.readReply item path reply = .error f) :
    Scan w x item path selection mode offset
      [(w.pageRequest path selection mode offset, reply)] [] (.error f)
  /-- The last page comes. -/
  | ends {offset : Nat} {reply : Reply} {p : Page α}
    (hreply : x.CanReply (w.pageRequest path selection mode offset) reply)
    (h : w.readReply item path reply = .ok p) (hmore : p.hasMore offset = false) :
    Scan w x item path selection mode offset
      [(w.pageRequest path selection mode offset, reply)] [p] (.ok p.items)
  /-- A page comes that is not the last. -/
  | goesOn {offset : Nat} {reply : Reply} {p : Page α} {log : List (Request × Reply)}
    {pages : List (Page α)} {result : Except Failure (List α)}
    (hreply : x.CanReply (w.pageRequest path selection mode offset) reply)
    (h : w.readReply item path reply = .ok p) (hmore : p.hasMore offset = true)
    (hrest : Scan w x item path selection mode (offset + p.items.length) log pages result) :
    Scan w x item path selection mode offset
      ((w.pageRequest path selection mode offset, reply) :: log) (p :: pages)
      (result.map (p.items ++ ·))

variable (w x item path selection mode) in
/-- Reading a collection is a scan, and keeping the record of it changes nothing else. -/
theorem exists_scan (offset : Nat) (wire : ω) (log : List (Request × Reply)) :
    ∃ result wire' part pages,
      w.allFrom x item path selection offset ⟨mode, wire⟩ = (result, ⟨mode, wire'⟩)
        ∧ w.allFrom x.recorded item path selection offset ⟨mode, wire, log⟩
          = (result, ⟨mode, wire', log ++ part⟩)
        ∧ Scan w x item path selection mode offset part pages result := by
  -- offsets grow below a bound, which is what the recursion itself goes by
  induction hn : 0x10000000000000000 - offset using Nat.strong_induction_on
    generalizing offset wire log with
  | _ n ih =>
    cases hx : x (w.pageRequest path selection mode offset) wire with
    | mk reply wire₁ =>
      have hreply : x.CanReply (w.pageRequest path selection mode offset) reply :=
        ⟨wire, congrArg Prod.fst hx⟩
      have hrecorded : x.recorded (w.pageRequest path selection mode offset) (wire, log)
          = (reply, wire₁, log ++ [(w.pageRequest path selection mode offset, reply)]) := by
        simp only [Exchange.recorded, hx]
      rw [allFrom_eq hx, allFrom_eq hrecorded]
      cases hpage : w.readReply item path reply with
      | error f => exact ⟨_, _, _, _, rfl, rfl, .fails hreply hpage⟩
      | ok p =>
        simp only
        by_cases hmore : p.hasMore offset = true
        · rw [if_pos hmore, if_pos hmore]
          have hbounds := Page.lt_of_hasMore hmore
          obtain ⟨result, wire', part, pages, hplain, hrest, hscan⟩ :=
            ih _ (by omega) (offset + p.items.length) wire₁
              (log ++ [(w.pageRequest path selection mode offset, reply)]) rfl
          refine ⟨_, wire', _, _, ?_, ?_, .goesOn hreply hpage hmore hscan⟩
          · rw [hplain]
          · rw [hrest, List.append_assoc, List.singleton_append]
        · rw [if_neg hmore, if_neg hmore]
          exact ⟨_, _, _, _, rfl, rfl, .ends hreply hpage (Bool.eq_false_iff.mpr hmore)⟩

/-! ## What holds of every scan -/

/-- How many items the first pages hold. -/
def received (pages : List (Page α)) (n : Nat) : Nat := ((pages.take n).flatMap Page.items).length

theorem received_zero (pages : List (Page α)) : received pages 0 = 0 := rfl

theorem received_cons (p : Page α) (pages : List (Page α)) (n : Nat) :
    received (p :: pages) (n + 1) = p.items.length + received pages n := by
  simp only [received, List.take_succ_cons, List.flatMap_cons, List.length_append]

theorem received_succ {pages : List (Page α)} {n : Nat} {p : Page α} (h : pages[n]? = some p) :
    received pages (n + 1) = received pages n + p.items.length := by
  simp only [received, List.take_add_one, h, Option.toList_some, List.flatMap_append,
    List.flatMap_singleton, List.length_append]

variable {offset : Nat} {log : List (Request × Reply)} {pages : List (Page α)}
  {result : Except Failure (List α)}

namespace Scan

/-- Each request is for the page after the pages that were received before it. -/
theorem requests_eq (h : Scan w x item path selection mode offset log pages result) :
    log.map Prod.fst = (List.range log.length).map fun i =>
      w.pageRequest path selection mode (offset + received pages i) := by
  induction h with
  | fails => rfl
  | ends => rfl
  | @goesOn offset reply p log pages result _ _ _ _ ih =>
    rw [List.map_cons, ih, List.length_cons, List.range_succ_eq_map, List.map_cons, List.map_map]
    refine congrArg (_ :: ·) (List.map_congr_left fun i _ => ?_)
    rw [Function.comp_apply, received_cons, Nat.add_assoc]

/-- The pages are what the replies are read as, in their order. -/
theorem replies (h : Scan w x item path selection mode offset log pages result) :
    List.Forall₂ (fun p e => w.readReply item path e.2 = .ok p) pages (log.take pages.length) := by
  induction h with
  | fails => exact .nil
  | ends _ h => exact .cons h .nil
  | goesOn _ h _ _ ih => exact .cons h ih

/-- A request follows only after a page with items that ends before the total it tells. -/
theorem exists_page (h : Scan w x item path selection mode offset log pages result) {i : Nat}
    (hi : i + 1 < log.length) :
    ∃ p total, pages[i]? = some p ∧ p.items ≠ [] ∧ p.total = some total
      ∧ offset + received pages (i + 1) < total.toNat := by
  induction h generalizing i with
  | fails => simp at hi
  | ends => simp at hi
  | @goesOn offset reply p log pages result _ _ hmore _ ih =>
    rw [received_cons, ← Nat.add_assoc]
    cases i with
    | succ i => exact ih (Nat.lt_of_succ_lt_succ hi)
    | zero =>
      simp only [Page.hasMore, Bool.and_eq_true, Option.any_eq_true, decide_eq_true_eq,
        Bool.not_eq_true', List.isEmpty_eq_false_iff] at hmore
      obtain ⟨hitems, total, htotal, hlt⟩ := hmore
      exact ⟨p, total, rfl, hitems, htotal, hlt⟩

/-- A scan ends with the last page and all items, or with the failure of a page and none. -/
theorem outcome (h : Scan w x item path selection mode offset log pages result) :
    (result = .ok (pages.flatMap Page.items) ∧ log.length = pages.length
        ∧ ∃ p, pages.getLast? = some p ∧ p.hasMore (offset + received pages (pages.length - 1)) = false)
      ∨ ∃ f e, result = .error f ∧ log.length = pages.length + 1 ∧ log.getLast? = some e
        ∧ w.readReply item path e.2 = .error f := by
  induction h with
  | fails _ h => exact .inr ⟨_, _, rfl, rfl, rfl, h⟩
  | @ends offset reply p _ _ hmore =>
    exact .inl ⟨by rw [List.flatMap_singleton], rfl, p, rfl, hmore⟩
  | @goesOn offset reply p log pages result _ _ _ hrest ih =>
    rcases ih with ⟨rfl, hlength, last, hlast, hmore⟩ | ⟨f, e, rfl, hlength, he, hf⟩
    · refine .inl ⟨rfl, congrArg (· + 1) hlength, last, ?_, ?_⟩
      · rw [List.getLast?_cons, hlast]
        rfl
      · -- the offset of the last page counts what the first page has brought too
        obtain ⟨q, pages', rfl⟩ := List.exists_cons_of_ne_nil
          (List.ne_nil_of_mem (List.mem_of_getLast? hlast))
        rw [List.length_cons, Nat.add_sub_cancel, List.length_cons, received_cons]
        rwa [List.length_cons, Nat.add_sub_cancel, Nat.add_assoc] at hmore
    · refine .inr ⟨f, e, rfl, congrArg (· + 1) hlength, ?_, hf⟩
      rw [List.getLast?_cons, he]
      rfl

/-- The offsets of requests grow. -/
theorem received_lt (h : Scan w x item path selection mode offset log pages result) {i j : Nat}
    (hij : i < j) (hj : j < log.length) : received pages i < received pages j := by
  have hstep : ∀ k, k + 1 < log.length → received pages k < received pages (k + 1) := by
    intro k hk
    obtain ⟨p, -, hp, hitems, -⟩ := h.exists_page hk
    have := List.length_pos_of_ne_nil hitems
    rw [received_succ hp]
    omega
  induction j, hij using Nat.le_induction with
  | base => exact hstep i hj
  | succ j _ ih => exact (ih (by omega)).trans (hstep j hj)

end Scan

/-! ## A server that holds a list -/

/-- A server that holds a list of items: it tells how many there are in all, and each page begins
with the next ones and has some as long as there are any. Pages may be of any length. -/
def Serves (w : Workspace) (x : Exchange ω) (item : Decoder α) (path : String)
    (selection : Selection) (mode : ApiMode) (all : List α) : Prop :=
  ∀ offset ≤ all.length, ∀ reply, x.CanReply (w.pageRequest path selection mode offset) reply →
    ∃ p total, w.readReply item path reply = .ok p
      ∧ p.total = some total ∧ total.toNat = all.length
      ∧ p.items <+: all.drop offset ∧ (offset < all.length → p.items ≠ [])

/-- **A list that a server holds is read as it is**, and nothing is asked for after its end. -/
theorem Scan.complete {all : List α}
    (h : Scan w x item path selection mode offset log pages result)
    (hserves : w.Serves x item path selection mode all) (hoffset : offset ≤ all.length) :
    result = .ok (all.drop offset)
      ∧ ∀ i, i + 1 < log.length → offset + received pages (i + 1) < all.length := by
  induction h with
  | fails hreply h =>
    obtain ⟨p, -, hp, -⟩ := hserves _ hoffset _ hreply
    cases h.symm.trans hp
  | @ends offset reply p hreply h hmore =>
    obtain ⟨p', total, hp', htotal, hlength, hfront, hsome⟩ := hserves _ hoffset _ hreply
    obtain rfl := Except.ok.inj (h.symm.trans hp')
    refine ⟨congrArg Except.ok (hfront.eq_of_length_le ?_), fun i hi => absurd hi (by simp)⟩
    rw [List.length_drop]
    by_contra hshort
    -- a page that ends before the last item has items and is not the last page
    have hmore' : p.hasMore offset = true := by
      have hitems := hsome (by omega)
      simp only [Page.hasMore, htotal, Option.any_some, Bool.and_eq_true, Bool.not_eq_true',
        List.isEmpty_eq_false_iff, decide_eq_true_eq]
      exact ⟨hitems, by omega⟩
    rw [hmore] at hmore'
    cases hmore'
  | @goesOn offset reply p log pages result hreply h hmore _ ih =>
    obtain ⟨p', total, hp', htotal, hlength, hfront, hsome⟩ := hserves _ hoffset _ hreply
    obtain rfl := Except.ok.inj (h.symm.trans hp')
    have hend : offset + p.items.length < all.length := by
      simp only [Page.hasMore, htotal, Option.any_some, Bool.and_eq_true, decide_eq_true_eq,
        hlength] at hmore
      exact hmore.2
    obtain ⟨rfl, hrest⟩ := ih hend.le
    refine ⟨?_, fun i hi => ?_⟩
    · have hitems := List.prefix_iff_eq_append.mp hfront
      rw [List.drop_drop] at hitems
      exact congrArg Except.ok hitems
    · cases i with
      | zero => rwa [received_cons, received_zero, Nat.add_zero]
      | succ i =>
        rw [received_cons, ← Nat.add_assoc]
        exact hrest i (Nat.lt_of_succ_lt_succ hi)

/-! ## Any server -/

/-- **The course of reading a collection**, whatever the server answers. -/
structure Course (w : Workspace) (item : Decoder α) (path : String) (selection : Selection)
    (mode : ApiMode) (log : List (Request × Reply)) (pages : List (Page α))
    (result : Except Failure (List α)) : Prop where
  /-- The requests differ in the offset only, and this is how many items came before. -/
  requests : log.map Prod.fst = (List.range log.length).map fun i =>
    w.pageRequest path selection mode (received pages i)
  replies : List.Forall₂ (fun p e => w.readReply item path e.2 = .ok p) pages (log.take pages.length)
  goesOn : ∀ i, i + 1 < log.length → ∃ p total, pages[i]? = some p ∧ p.items ≠ []
    ∧ p.total = some total ∧ received pages (i + 1) < total.toNat
  ascending : ∀ i j, i < j → j < log.length → received pages i < received pages j
  bounded : ∀ i < log.length, received pages i < 0x10000000000000000
  /-- All items, after a page that is the last; or the failure of a page, and no items. -/
  outcome :
    (result = .ok (pages.flatMap Page.items) ∧ log.length = pages.length
        ∧ ∃ p, pages.getLast? = some p ∧ p.hasMore (received pages (pages.length - 1)) = false)
      ∨ ∃ f e, result = .error f ∧ log.length = pages.length + 1 ∧ log.getLast? = some e
        ∧ w.readReply item path e.2 = .error f

theorem Scan.course (h : Scan w x item path selection mode 0 log pages result) :
    w.Course item path selection mode log pages result where
  requests := by simpa only [Nat.zero_add] using h.requests_eq
  replies := h.replies
  goesOn i hi := by simpa only [Nat.zero_add] using h.exists_page hi
  ascending _ _ hij hj := h.received_lt hij hj
  bounded i hi := by
    cases i with
    | zero =>
      rw [received_zero]
      decide
    | succ i =>
      obtain ⟨-, total, -, -, -, hlt⟩ := h.exists_page hi
      rw [Nat.zero_add] at hlt
      exact hlt.trans total.toNat_lt
  outcome := by simpa only [Nat.zero_add] using h.outcome

/-- **Reading a collection.** Whatever the server answers it comes to an end, after requests that
follow what the pages say. From a server that holds a list it comes to exactly this list, without a
request past its end. -/
theorem allFrom_course (w : Workspace) (x : Exchange ω) (item : Decoder α) (path : String)
    (selection : Selection) (mode : ApiMode) (wire : ω) :
    ∃ result wire' log pages,
      w.allFrom x item path selection 0 ⟨mode, wire⟩ = (result, ⟨mode, wire'⟩)
        ∧ w.allFrom x.recorded item path selection 0 ⟨mode, wire, []⟩ = (result, ⟨mode, wire', log⟩)
        ∧ w.Course item path selection mode log pages result
        ∧ ∀ all, w.Serves x item path selection mode all →
          result = .ok all ∧ pages.flatMap Page.items = all
            ∧ ∀ i, i + 1 < log.length → received pages (i + 1) < all.length := by
  obtain ⟨result, wire', log, pages, hplain, hrecorded, hscan⟩ :=
    exists_scan w x item path selection mode 0 wire []
  refine ⟨result, wire', log, pages, hplain, hrecorded, hscan.course, fun all hserves => ?_⟩
  obtain ⟨hresult, hnext⟩ := hscan.complete hserves (Nat.zero_le _)
  refine ⟨hresult, ?_, fun i hi => by simpa only [Nat.zero_add] using hnext i hi⟩
  rcases hscan.outcome with ⟨hok, -⟩ | ⟨f, e, herror, -⟩
  · exact Except.ok.inj (hok.symm.trans hresult)
  · cases herror.symm.trans hresult

/-! ## A server with small pages -/

/-- A workspace that is asked for three items at a time. -/
def threeAtATime : Workspace :=
  (⟨"https://octane.example.com", 1001, 1002, 500⟩ : Workspace).withPageSize 3

/-- A server of three texts that gives two at a time, however many are asked for. -/
def capped : Exchange Unit := fun request _ =>
  let page (texts : List Json) : Reply :=
    .answer 200 (Json.object [("total_count", .ofNat 3), ("data", .array texts)]).compact
  match request.parameters.lookup "offset" with
  | some "0" => (page [.text "a", .text "b"], ())
  | some "1" => (page [.text "b", .text "c"], ())
  | some "2" => (page [.text "c"], ())
  | _ => (page [], ())

theorem serves_capped :
    threeAtATime.Serves capped Decoder.text "texts" ⟨[], none⟩ .default ["a", "b", "c"] := by
  intro offset hoffset reply hreply
  obtain ⟨_, rfl⟩ := hreply
  have hle : offset ≤ 3 := hoffset
  interval_cases offset
  · exact ⟨⟨some 3, ["a", "b"]⟩, 3, by cbv, rfl, rfl, by decide, by decide⟩
  · exact ⟨⟨some 3, ["b", "c"]⟩, 3, by cbv, rfl, rfl, by decide, by decide⟩
  · exact ⟨⟨some 3, ["c"]⟩, 3, by cbv, rfl, rfl, by decide, by decide⟩
  · exact ⟨⟨some 3, []⟩, 3, by cbv, rfl, rfl, by decide, by decide⟩

theorem allFrom_capped :
    threeAtATime.Serves capped Decoder.text "texts" ⟨[], none⟩ .default ["a", "b", "c"]
      ∧ (threeAtATime.allFrom capped Decoder.text "texts" ⟨[], none⟩ 0 ⟨.default, ()⟩).1
        = .ok ["a", "b", "c"] := by
  obtain ⟨result, wire, log, pages, hplain, -, -, hserved⟩ :=
    allFrom_course threeAtATime capped Decoder.text "texts" ⟨[], none⟩ .default ()
  refine ⟨serves_capped, ?_⟩
  rw [hplain]
  exact (hserved _ serves_capped).1

end Workspace

end TypedEntities.Remote
