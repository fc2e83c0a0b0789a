import Mathlib
import TypedEntities.Proofs.Java.Constant
import TypedEntities.Proofs.Listing

/-!
# The constants of siblings are legal and distinct

`distinctConstants` walks over the siblings in the order of constant, name and id, and puts each
result back in the place of its sibling. `handOut` is that walk alone, over the constants that the
names give: it never gives out what is taken, so what it gives out is distinct (`nodup_handOut`).
`placed` joins each candidate with what it got, in the order of the siblings; everything that is
said about `distinctConstants` is read off it. The payoff is `distinctConstants_legal`.
-/

namespace TypedEntities.Java

/-! ## The search for a free number -/

/-- The search for a free number from `n` on stops at `k`: all numbers before are taken. -/
inductive SearchStops (taken : List String) (base : String) : Nat → Nat → Prop
  | free {n : Nat} (h : numbered base n ∉ taken) : SearchStops taken base n n
  | next {n k : Nat} (h : numbered base n ∈ taken) (rest : SearchStops taken base (n + 1) k) :
    SearchStops taken base n k

namespace SearchStops

variable {taken : List String} {base : String} {n k : Nat}

/-- The search stops at a number that is free. -/
theorem notMem (h : SearchStops taken base n k) : numbered base k ∉ taken := by
  induction h with
  | free h => exact h
  | next _ _ ih => exact ih

/-- It does not go back. -/
theorem le (h : SearchStops taken base n k) : n ≤ k := by
  induction h with
  | free => exact Nat.le_refl _
  | next _ _ ih => omega

/-- All numbers before the one where a search stops are taken. -/
theorem mem_of_lt (h : SearchStops taken base n k) {j : Nat} (hn : n ≤ j) (hk : j < k) :
    numbered base j ∈ taken := by
  induction h with
  | free => omega
  | @next n _ hm _ ih =>
    rcases Nat.eq_or_lt_of_le hn with rfl | hlt
    · exact hm
    · exact ih hlt hk

/-- A search stops at one number only. -/
theorem unique (h : SearchStops taken base n k) {k' : Nat} (h' : SearchStops taken base n k') :
    k = k' := by
  induction h with
  | free hn =>
    cases h' with
    | free => rfl
    | next hm => exact absurd hm hn
  | next hm _ ih =>
    cases h' with
    | free hn => exact absurd hm hn
    | next _ rest => exact ih rest

/-- Where a search stops depends only on what is taken, not on how it is listed. -/
theorem congr {taken' : List String} (hmem : ∀ x, x ∈ taken ↔ x ∈ taken')
    (h : SearchStops taken base n k) : SearchStops taken' base n k := by
  induction h with
  | free hn => exact .free fun hm => hn ((hmem _).mpr hm)
  | next hm _ ih => exact .next ((hmem _).mp hm) ih

end SearchStops

/-- Among one more numbers than there are taken constants one is free. -/
theorem exists_free (taken : List String) (base : String) (n : Nat) :
    ∃ j, j ≤ taken.length ∧ numbered base (n + j) ∉ taken := by
  by_contra hall
  push Not at hall
  -- if all were taken, more distinct numbers than there are taken constants would be among them
  let tried := (List.range (taken.length + 1)).map fun j => numbered base (n + j)
  have hnodup : tried.Nodup := by
    refine List.nodup_range.map ?_
    intro i j hij
    have := numbered_inj.mp hij
    omega
  have hsub : tried ⊆ taken := by
    intro x hx
    obtain ⟨j, hj, rfl⟩ := List.mem_map.mp hx
    exact hall j (by have := List.mem_range.mp hj; omega)
  have hlen := (hnodup.subperm hsub).length_le
  simp only [tried, List.length_map, List.length_range] at hlen
  omega

/-- The bounded search stops where the unbounded one does, if that is within the bound. -/
theorem searchStops_of_tries {taken : List String} {base : String} :
    ∀ {tries n j : Nat}, j ≤ tries → numbered base (n + j) ∉ taken →
      SearchStops taken base n (firstFree taken base tries n) := by
  intro tries
  induction tries with
  | zero =>
    intro n j hj hfree
    obtain rfl : j = 0 := by omega
    exact .free hfree
  | succ tries ih =>
    intro n j hj hfree
    unfold firstFree
    split
    next hm =>
      -- a number that is taken is passed over, and one try less finds the free one
      cases j with
      | zero => exact absurd hm hfree
      | succ j =>
        have hshift : n + 1 + j = n + (j + 1) := by omega
        exact .next hm (ih (j := j) (by omega) (by rwa [hshift]))
    next hn => exact .free hn

/-- **The search ends**, whatever is taken and wherever it starts. -/
theorem searchStops_firstFree (taken : List String) (base : String) (n : Nat) :
    SearchStops taken base n (firstFree taken base taken.length n) := by
  obtain ⟨j, hj, hfree⟩ := exists_free taken base n
  exact searchStops_of_tries hj hfree

/-! ## Handing out constants -/

/-- What candidates with the given constants get, one after the other. -/
def handOut (contested : String → Bool) : (taken bases : List String) → List String
  | _, [] => []
  | taken, base :: rest =>
    if contested base then
      let constant := numbered base (firstFree taken base taken.length 1)
      constant :: handOut contested (constant :: taken) rest
    else base :: handOut contested taken rest

variable {contested : String → Bool}

/-- Each base gets one constant. -/
theorem length_handOut (taken bases : List String) :
    (handOut contested taken bases).length = bases.length := by
  induction bases generalizing taken with
  | nil => rfl
  | cons base rest ih =>
    unfold handOut
    split <;> simp [ih]

/-- Giving candidates their constants in turn is handing out the constants of their names. -/
theorem given_foldl_give (cs : List Candidate) (a : Assignment) :
    (cs.foldl (Assignment.give contested) a).given
      = ((cs.map Candidate.place).zip (handOut contested a.taken (cs.map Candidate.base))).reverse
        ++ a.given := by
  induction cs generalizing a with
  | nil => rfl
  | cons c rest ih =>
    rw [List.foldl_cons, ih]
    unfold Assignment.give
    split
    next h => simp [handOut, h]
    next h => simp [handOut, h]

/-- What one candidate gets for its constant: the constant itself if no one contests it, otherwise a
number after it. -/
def Suits (contested : String → Bool) (base constant : String) : Prop :=
  if contested base then ∃ k, 0 < k ∧ constant = numbered base k else constant = base

/-- What a base gets is the base itself or the base with a number. -/
theorem suits_handOut (taken bases : List String) :
    List.Forall₂ (Suits contested) bases (handOut contested taken bases) := by
  induction bases generalizing taken with
  | nil => exact .nil
  | cons base rest ih =>
    unfold handOut
    split
    next h =>
      refine .cons ?_ (ih _)
      unfold Suits
      rw [if_pos h]
      exact ⟨_, (searchStops_firstFree taken base 1).le, rfl⟩
    next h =>
      refine .cons ?_ (ih _)
      unfold Suits
      rw [if_neg h]

/-- The constants handed out are distinct, and of those that were taken before only the uncontested
ones of the candidates are among them. -/
theorem nodup_handOut {taken bases : List String}
    (hkept : ∀ b ∈ bases, contested b = false → b ∈ taken)
    (hnodup : (bases.filter fun b => !contested b).Nodup) :
    (handOut contested taken bases).Nodup ∧
      ∀ x ∈ handOut contested taken bases, x ∈ taken → x ∈ bases ∧ contested x = false := by
  induction bases generalizing taken with
  | nil => exact ⟨List.nodup_nil, fun x hx => absurd hx List.not_mem_nil⟩
  | cons base rest ih =>
    have hrest : ∀ b ∈ rest, contested b = false → b ∈ taken := fun b hb =>
      hkept b (List.mem_cons_of_mem _ hb)
    unfold handOut
    split
    next h =>
      -- the new constant is not taken, so neither a kept nor a later one can equal it
      rw [List.filter_cons_of_neg (by simp [h])] at hnodup
      have hfree := (searchStops_firstFree taken base 1).notMem
      obtain ⟨hn, hin⟩ := ih (fun b hb hc => List.mem_cons_of_mem _ (hrest b hb hc)) hnodup
      refine ⟨List.nodup_cons.mpr ⟨fun hx => ?_, hn⟩, fun x hx ht => ?_⟩
      · obtain ⟨hb, hc⟩ := hin _ hx (List.mem_cons_self ..)
        exact hfree (hrest _ hb hc)
      · rcases List.mem_cons.mp hx with rfl | hx
        · exact absurd ht hfree
        · obtain ⟨hb, hc⟩ := hin x hx (List.mem_cons_of_mem _ ht)
          exact ⟨List.mem_cons_of_mem _ hb, hc⟩
    next h =>
      -- a kept constant was taken from the start, and it is kept for one candidate only
      have hc : contested base = false := by simpa using h
      rw [List.filter_cons_of_pos (by simp [hc]), List.nodup_cons] at hnodup
      obtain ⟨hn, hin⟩ := ih hrest hnodup.2
      refine ⟨List.nodup_cons.mpr ⟨fun hx => ?_, hn⟩, fun x hx ht => ?_⟩
      · obtain ⟨hb, -⟩ := hin base hx (hkept base (List.mem_cons_self ..) hc)
        exact hnodup.1 (List.mem_filter.mpr ⟨hb, by simp [hc]⟩)
      · rcases List.mem_cons.mp hx with rfl | hx
        · exact ⟨List.mem_cons_self .., hc⟩
        · obtain ⟨hb, hcx⟩ := hin x hx ht
          exact ⟨List.mem_cons_of_mem _ hb, hcx⟩

/-- What is handed out depends only on what is taken, not on how it is listed. -/
theorem handOut_congr {taken taken' : List String} (hmem : ∀ x, x ∈ taken ↔ x ∈ taken')
    (bases : List String) : handOut contested taken bases = handOut contested taken' bases := by
  induction bases generalizing taken taken' with
  | nil => rfl
  | cons base rest ih =>
    have hfree : firstFree taken base taken.length 1 = firstFree taken' base taken'.length 1 :=
      ((searchStops_firstFree taken base 1).congr hmem).unique
        (searchStops_firstFree taken' base 1)
    unfold handOut
    split
    next =>
      rw [hfree]
      refine congrArg _ (ih fun x => ?_)
      rw [List.mem_cons, List.mem_cons, hmem x]
    next => rw [ih hmem]

/-! ## From candidates back to siblings -/

variable (siblings : List Sibling) (reserved : Option String)

/-- The candidates in the order in which they are given their constants. -/
def ordered : List Candidate := (candidates siblings).mergeSort fun a b => a.key ≤ b.key

/-- Whether a constant is contested among the siblings. -/
def contestedBy : String → Bool := isContested ((candidates siblings).map Candidate.base) reserved

/-- The constants that are taken before any is numbered. -/
def kept : List String :=
  reserved.toList
    ++ ((candidates siblings).map Candidate.base).filter fun b => !contestedBy siblings reserved b

/-- The constants in the order in which they are handed out. -/
def handedOut : List String :=
  handOut (contestedBy siblings reserved) (kept siblings reserved)
    ((ordered siblings).map Candidate.base)

/-- Each candidate with its constant, in the order in which they are given. -/
def assigned : List (Candidate × String) := (ordered siblings).zip (handedOut siblings reserved)

/-- Each candidate with its constant, in the order of the siblings. -/
def placed : List (Candidate × String) :=
  (assigned siblings reserved).mergeSort fun a b => a.1.place ≤ b.1.place

/-- To put candidates in order drops none. -/
theorem ordered_perm : (ordered siblings).Perm (candidates siblings) := List.mergeSort_perm ..

theorem placed_perm : (placed siblings reserved).Perm (assigned siblings reserved) :=
  List.mergeSort_perm ..

/-- There is one candidate for each sibling, in their order. -/
theorem map_sibling_candidates : (candidates siblings).map Candidate.sibling = siblings := by
  simp only [candidates, List.map_map]
  exact List.zipIdx_map_fst ..

/-- The places of the candidates count the siblings. -/
theorem map_place_candidates :
    (candidates siblings).map Candidate.place = List.range siblings.length := by
  simp only [candidates, List.map_map, List.range_eq_range']
  exact List.zipIdx_map_snd ..

/-- A candidate's constant is the one that the name of its sibling gives. -/
theorem base_of_mem_candidates {c : Candidate} (h : c ∈ candidates siblings) :
    c.base = constantName c.sibling.name := by
  obtain ⟨p, -, rfl⟩ := List.mem_map.mp h
  rfl

theorem map_base_candidates :
    (candidates siblings).map Candidate.base = siblings.map fun s => constantName s.name := by
  simp only [candidates, List.map_map]
  rw [← List.zipIdx_map_fst 0 siblings, List.map_map, List.zipIdx_map_fst]
  rfl

/-- Candidates in one place are one candidate. -/
theorem eq_of_place_eq {a b : Candidate} (ha : a ∈ candidates siblings)
    (hb : b ∈ candidates siblings) (h : a.place = b.place) : a = b := by
  refine List.inj_on_of_nodup_map ?_ ha hb h
  rw [map_place_candidates]
  exact List.nodup_range

theorem length_handedOut : (handedOut siblings reserved).length = (ordered siblings).length := by
  rw [handedOut, length_handOut, List.length_map]

theorem map_fst_assigned : (assigned siblings reserved).map Prod.fst = ordered siblings :=
  List.map_fst_zip (Nat.le_of_eq (length_handedOut siblings reserved).symm)

theorem map_snd_assigned :
    (assigned siblings reserved).map Prod.snd = handedOut siblings reserved :=
  List.map_snd_zip (Nat.le_of_eq (length_handedOut siblings reserved))

/-- Constants are assigned to candidates only. -/
theorem fst_mem_of_mem_assigned {z : Candidate × String} (h : z ∈ assigned siblings reserved) :
    z.1 ∈ candidates siblings := by
  refine (ordered_perm siblings).mem_iff.mp ?_
  rw [← map_fst_assigned siblings reserved]
  exact List.mem_map_of_mem h

/-- Sorted by place, the candidates stand as the siblings do. -/
theorem map_fst_placed : (placed siblings reserved).map Prod.fst = candidates siblings := by
  have hperm : ((placed siblings reserved).map Prod.fst).Perm (candidates siblings) := by
    refine ((placed_perm siblings reserved).map _).trans ?_
    rw [map_fst_assigned]
    exact ordered_perm siblings
  have hplaces : ((placed siblings reserved).map Prod.fst).Pairwise
      fun a b => a.place ≤ b.place :=
    List.pairwise_map.mpr (pairwise_mergeSort_key (fun z : Candidate × String => z.1.place) _)
  refine eq_of_perm_of_pairwise_key hperm ?_ hplaces ?_
  · intro a ha b hb hab
    exact eq_of_place_eq siblings (hperm.mem_iff.mp ha) (hperm.mem_iff.mp hb) hab
  · have h : (List.range siblings.length).Pairwise (· ≤ ·) := List.pairwise_le_range
    rw [← map_place_candidates] at h
    exact List.pairwise_map.mp h

/-- What is given to one place is given once. -/
theorem nodup_places_assigned :
    ((assigned siblings reserved).map fun z => z.1.place).Nodup := by
  have h : ((assigned siblings reserved).map Prod.fst).map Candidate.place
      = (assigned siblings reserved).map fun z => z.1.place := List.map_map
  rw [← h, map_fst_assigned, ((ordered_perm siblings).map _).nodup_iff, map_place_candidates]
  exact List.nodup_range

/-- Sorted by place, the constants are the result. -/
theorem map_snd_placed :
    (placed siblings reserved).map Prod.snd = distinctConstants siblings reserved := by
  let entry : Candidate × String → Nat × String := fun z => (z.1.place, z.2)
  let given := ((ordered siblings).foldl (Assignment.give (contestedBy siblings reserved))
    ⟨kept siblings reserved, []⟩).given
  have hgiven : given = ((assigned siblings reserved).map entry).reverse := by
    simp only [given, given_foldl_give, List.append_nil]
    exact congrArg List.reverse (List.zip_map_left ..)
  -- the walk lists what it gave backwards, but every place is there once
  have hinj : ∀ a ∈ given, ∀ b ∈ given, a.1 = b.1 → a = b := by
    intro a ha b hb hab
    refine List.inj_on_of_nodup_map ?_ ha hb hab
    rw [hgiven, List.map_reverse, List.nodup_reverse, List.map_map]
    exact nodup_places_assigned siblings reserved
  have hsort : given.mergeSort (fun a b => a.1 ≤ b.1) = (placed siblings reserved).map entry := by
    rw [mergeSort_eq_of_perm Prod.fst (hgiven ▸ List.reverse_perm _) hinj]
    exact (List.map_mergeSort (f := entry) (s := fun a b => a.1 ≤ b.1) fun _ _ _ _ => rfl).symm
  calc (placed siblings reserved).map Prod.snd
      = ((placed siblings reserved).map entry).map Prod.snd := by rw [List.map_map]; rfl
    _ = (given.mergeSort fun a b => a.1 ≤ b.1).map Prod.snd := by rw [hsort]
    _ = distinctConstants siblings reserved := rfl

/-- In the end the constants stand at the places of their siblings. -/
theorem map_sibling_placed :
    (placed siblings reserved).map (fun z => z.1.sibling) = siblings := by
  have h : ((placed siblings reserved).map Prod.fst).map Candidate.sibling
      = (placed siblings reserved).map fun z => z.1.sibling := List.map_map
  rw [← h, map_fst_placed, map_sibling_candidates]

/-- Each sibling gets one constant. -/
theorem length_distinctConstants :
    (distinctConstants siblings reserved).length = siblings.length := by
  rw [← map_snd_placed, List.length_map]
  conv_rhs => rw [← map_sibling_placed siblings reserved, List.length_map]

/-- The constants, but for the order, are those that were handed out. -/
theorem distinctConstants_perm :
    (distinctConstants siblings reserved).Perm (handedOut siblings reserved) := by
  rw [← map_snd_placed, ← map_snd_assigned]
  exact (placed_perm siblings reserved).map _

/-- The siblings with their constants, but for the order, are as the constants were handed out. -/
theorem zip_distinctConstants_perm :
    (siblings.zip (distinctConstants siblings reserved)).Perm
      (((ordered siblings).map Candidate.sibling).zip (handedOut siblings reserved)) := by
  have hzip : siblings.zip (distinctConstants siblings reserved)
      = (placed siblings reserved).map fun z => (z.1.sibling, z.2) := by
    calc siblings.zip (distinctConstants siblings reserved)
        = ((placed siblings reserved).map fun z => z.1.sibling).zip
            ((placed siblings reserved).map Prod.snd) := by
          rw [map_sibling_placed, map_snd_placed]
      _ = (placed siblings reserved).map fun z => (z.1.sibling, z.2) := List.zip_map' ..
  rw [hzip, List.zip_map_left]
  exact (placed_perm siblings reserved).map _

/-! ## The order of siblings -/

/-- Siblings that cannot be told apart in the order are the same. -/
theorem Sibling.eq_of_key_eq {s t : Sibling} (h : s.key = t.key) : s = t := by
  obtain ⟨name, id⟩ := s
  obtain ⟨name', id'⟩ := t
  have hlist : [name, id] = [name', id'] := congrArg Texts.list h
  cases hlist
  rfl

section Order

variable {siblings siblings' : List Sibling} (h : siblings.Perm siblings')
include h

/-- What candidates are numbered by, said of their siblings. -/
theorem map_sibling_ordered_eq_of_perm :
    (ordered siblings).map Candidate.sibling = (ordered siblings').map Candidate.sibling := by
  let key : Sibling → Texts := fun s => ⟨[constantName s.name, s.name, s.id]⟩
  have hsiblings : ∀ l : List Sibling, ((ordered l).map Candidate.sibling).Perm l := by
    intro l
    have hmap := (ordered_perm l).map Candidate.sibling
    rwa [map_sibling_candidates] at hmap
  have hsorted : ∀ l : List Sibling,
      ((ordered l).map Candidate.sibling).Pairwise fun a b => key a ≤ key b := by
    intro l
    refine List.pairwise_map.mpr ((pairwise_mergeSort_key Candidate.key _).imp_of_mem ?_)
    intro a b ha hb hab
    -- the key of a candidate is that of its sibling, since the name gives the base
    have hbase := base_of_mem_candidates l ((ordered_perm l).mem_iff.mp ha)
    have hbase' := base_of_mem_candidates l ((ordered_perm l).mem_iff.mp hb)
    unfold Candidate.key at hab
    rw [hbase, hbase'] at hab
    exact hab
  have hinj : ∀ a b : Sibling, key a = key b → a = b := by
    intro a b hab
    have htexts : [a.name, a.id] = [b.name, b.id] := (List.cons.inj (congrArg Texts.list hab)).2
    exact Sibling.eq_of_key_eq (congrArg Texts.mk htexts)
  exact eq_of_perm_of_pairwise_key (((hsiblings siblings).trans h).trans (hsiblings siblings').symm)
    (fun a _ b _ => hinj a b) (hsorted siblings) (hsorted siblings')

/-- Whether a base is contested does not depend on the order of siblings. -/
theorem contestedBy_eq_of_perm (reserved : Option String) :
    contestedBy siblings reserved = contestedBy siblings' reserved := by
  funext base
  unfold contestedBy isContested
  rw [map_base_candidates, map_base_candidates, (h.map _).count_eq]

/-- Nor does it which constants are kept as they are. -/
theorem mem_kept_iff_of_perm (reserved : Option String) (x : String) :
    x ∈ kept siblings reserved ↔ x ∈ kept siblings' reserved := by
  unfold kept
  rw [contestedBy_eq_of_perm h, map_base_candidates, map_base_candidates]
  exact (((h.map _).filter _).append_left _).mem_iff

theorem handedOut_eq_of_perm (reserved : Option String) :
    handedOut siblings reserved = handedOut siblings' reserved := by
  have hbases : (ordered siblings).map Candidate.base = (ordered siblings').map Candidate.base := by
    have hbase : ∀ l : List Sibling, (ordered l).map Candidate.base
        = ((ordered l).map Candidate.sibling).map fun s => constantName s.name := by
      intro l
      rw [List.map_map]
      refine List.map_congr_left fun c hc => ?_
      exact base_of_mem_candidates l ((ordered_perm l).mem_iff.mp hc)
    rw [hbase, hbase, map_sibling_ordered_eq_of_perm h]
  unfold handedOut
  rw [hbases, contestedBy_eq_of_perm h]
  exact handOut_congr (mem_kept_iff_of_perm h reserved) _

/-- In another order siblings get the same constants; where one is repeated its constants may change
places. -/
theorem zip_distinctConstants_perm_of_perm (reserved : Option String) :
    (siblings.zip (distinctConstants siblings reserved)).Perm
      (siblings'.zip (distinctConstants siblings' reserved)) := by
  refine (zip_distinctConstants_perm siblings reserved).trans ?_
  rw [map_sibling_ordered_eq_of_perm h, handedOut_eq_of_perm h]
  exact (zip_distinctConstants_perm siblings' reserved).symm

end Order

/-- Things with different siblings take their constants with them into another order. -/
theorem zip_constants_perm_of_perm {α : Type} {sibling : α → Sibling} {l l' : List α}
    (h : l.Perm l') (hnodup : (l.map sibling).Nodup) (reserved : Option String) :
    (l.zip (distinctConstants (l.map sibling) reserved)).Perm
      (l'.zip (distinctConstants (l'.map sibling) reserved)) := by
  have hzip : ∀ l : List α, (l.zip (distinctConstants (l.map sibling) reserved)).map
      (Prod.map sibling id) = (l.map sibling).zip (distinctConstants (l.map sibling) reserved) := by
    intro l
    rw [List.zip_map_left]
  refine perm_of_map_perm (f := Prod.map sibling id) ?_ ?_ ?_
  · rw [hzip, hzip]
    exact zip_distinctConstants_perm_of_perm (h.map sibling) reserved
  · rw [hzip]
    refine List.Nodup.of_map Prod.fst ?_
    rwa [List.map_fst_zip (length_distinctConstants ..).ge]
  · -- different entries have different siblings, so pairs can be told apart by them
    intro z ha w hb heq
    obtain ⟨a, c⟩ := z
    obtain ⟨b, d⟩ := w
    obtain ⟨hsibling, rfl⟩ := Prod.mk.inj heq
    have hab := List.inj_on_of_nodup_map hnodup (List.of_mem_zip ha).1
      (h.mem_iff.mpr (List.of_mem_zip hb).1) hsibling
    rw [hab]
    rfl

/-! ## The constants of siblings -/

/-- Every sibling gets the constant of its name, or a number after it if that is contested. -/
theorem suits_distinctConstants :
    List.Forall₂ (fun s c => Suits (contestedBy siblings reserved) (constantName s.name) c) siblings
      (distinctConstants siblings reserved) := by
  have hassigned : ∀ z ∈ assigned siblings reserved,
      Suits (contestedBy siblings reserved) (constantName z.1.sibling.name) z.2 := by
    intro z hz
    have hsuits : List.Forall₂ (Suits (contestedBy siblings reserved))
        ((ordered siblings).map Candidate.base) (handedOut siblings reserved) := suits_handOut ..
    rw [List.forall₂_map_left_iff, List.forall₂_iff_zip] at hsuits
    rw [← base_of_mem_candidates siblings (fst_mem_of_mem_assigned siblings reserved hz)]
    exact hsuits.2 hz
  rw [← map_snd_placed, List.forall₂_map_right_iff]
  conv => arg 2; rw [← map_sibling_placed siblings reserved]
  rw [List.forall₂_map_left_iff, List.forall₂_same]
  exact fun z hz => hassigned z ((placed_perm siblings reserved).mem_iff.mp hz)

/-- A constant that no one contests is wanted by one sibling only. -/
theorem nodup_uncontested :
    (((ordered siblings).map Candidate.base).filter
      fun b => !contestedBy siblings reserved b).Nodup := by
  rw [(((ordered_perm siblings).map Candidate.base).filter _).nodup_iff,
    List.nodup_iff_count_le_one]
  intro b
  by_cases hb : contestedBy siblings reserved b
  · rw [List.count_eq_zero_of_not_mem fun hm => by simp [hb] at hm]
    omega
  · -- a constant that is wanted twice is contested
    have hcount : ¬1 < ((candidates siblings).map Candidate.base).count b := by
      intro h
      exact hb (by simp [contestedBy, isContested, h])
    have hle := (List.filter_sublist (p := fun b => !contestedBy siblings reserved b)
      (l := (candidates siblings).map Candidate.base)).count_le b
    omega

/-- A base that nobody contests is kept. -/
theorem kept_of_uncontested {b : String} (h : b ∈ (ordered siblings).map Candidate.base)
    (hb : contestedBy siblings reserved b = false) : b ∈ kept siblings reserved := by
  refine List.mem_append_right _ (List.mem_filter.mpr ⟨?_, by simp [hb]⟩)
  exact ((ordered_perm siblings).map _).mem_iff.mp h

/-- No two siblings get the same constant. -/
theorem nodup_distinctConstants : (distinctConstants siblings reserved).Nodup := by
  rw [(distinctConstants_perm siblings reserved).nodup_iff]
  exact (nodup_handOut (fun b hb => kept_of_uncontested siblings reserved hb)
    (nodup_uncontested siblings reserved)).1

/-- The reserved constant is taken from the start and contested, so no one gets it. -/
theorem ne_reserved {c : String} (h : c ∈ distinctConstants siblings reserved) :
    some c ≠ reserved := by
  intro heq
  subst heq
  have hc := (distinctConstants_perm siblings (some c)).mem_iff.mp h
  have hin := (nodup_handOut (fun b hb => kept_of_uncontested siblings (some c) hb)
    (nodup_uncontested siblings (some c))).2 c hc (List.mem_cons_self ..)
  simp [contestedBy, isContested] at hin

theorem isConstant_of_suits {contested : String → Bool} {name c : String}
    (h : Suits contested (constantName name) c) : IsConstant c := by
  unfold Suits at h
  split at h
  next =>
    obtain ⟨k, -, rfl⟩ := h
    exact (isConstant_constantName name).numbered k
  next =>
    rw [h]
    exact isConstant_constantName name

/-- What siblings get are constants. -/
theorem isConstant_of_mem {c : String} (h : c ∈ distinctConstants siblings reserved) :
    IsConstant c := by
  obtain ⟨s, -, hs⟩ := exists_left_of_mem (suits_distinctConstants siblings reserved) h
  exact isConstant_of_suits hs

/-- **Constants of siblings.** Every sibling has one constant, in its place: that of its name, or a
number after it where others want the same or it is reserved. The constants are distinct, none is
the reserved one, each can name an enumeration constant, and the search for a number ends whatever
is taken. -/
theorem distinctConstants_legal :
    List.Forall₂ (fun s c => Suits (contestedBy siblings reserved) (constantName s.name) c) siblings
        (distinctConstants siblings reserved)
      ∧ (distinctConstants siblings reserved).Nodup
      ∧ (∀ c ∈ distinctConstants siblings reserved, some c ≠ reserved ∧ IsConstant c)
      ∧ ∀ (taken : List String) (base : String) (n : Nat),
          SearchStops taken base n (firstFree taken base taken.length n) :=
  ⟨suits_distinctConstants siblings reserved, nodup_distinctConstants siblings reserved,
    fun _ h => ⟨ne_reserved siblings reserved h, isConstant_of_mem siblings reserved h⟩,
    searchStops_firstFree⟩

end TypedEntities.Java
