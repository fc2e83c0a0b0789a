import Mathlib
import TypedEntities.Proofs.Java.Distinct

/-!
# The numbers of siblings

`distinctConstants` numbers contested siblings one after the other and looks each time for a constant
that is not taken. Numbers of one constant never stand in the way of another (`numbered_inj_iff`), so
what siblings get can be said without the walk: those that want a contested constant have, in their
order, the least numbers that are open for it (`Numbering.shared`). A number is open if its constant
is neither reserved nor that of one sibling alone, which does not depend on how the siblings are
listed.
-/

namespace TypedEntities.Java

/-! ## The least numbers with a property -/

/-- The numbers of a list are the least that have a property, in ascending order. -/
structure Least (P : Nat → Prop) (ks : List Nat) : Prop where
  ascending : ks.Pairwise (· < ·)
  holds : ∀ k ∈ ks, P k
  below : ∀ k ∈ ks, ∀ j < k, P j → j ∈ ks

namespace Least

variable {P Q : Nat → Prop} {ks : List Nat} {k : Nat}

theorem nil : Least P [] := ⟨.nil, nofun, nofun⟩

theorem congr (hPQ : ∀ j, P j ↔ Q j) (h : Least P ks) : Least Q ks where
  ascending := h.ascending
  holds j hj := (hPQ j).mp (h.holds j hj)
  below j hj i hlt hi := h.below j hj i hlt ((hPQ i).mpr hi)

/-- The least number, and then the least of the others. -/
theorem cons (hk : P k) (hleast : ∀ j < k, ¬P j) (h : Least (fun j => P j ∧ j ≠ k) ks) :
    Least P (k :: ks) where
  ascending := by
    refine List.pairwise_cons.mpr ⟨fun j hj => ?_, h.ascending⟩
    obtain ⟨hPj, hne⟩ := h.holds j hj
    have hge : ¬j < k := fun hlt => hleast j hlt hPj
    omega
  holds := List.forall_mem_cons.mpr ⟨hk, fun j hj => (h.holds j hj).1⟩
  below := by
    intro j hj i hlt hi
    rcases List.mem_cons.mp hj with rfl | hj
    · exact absurd hi (hleast i hlt)
    · by_cases hik : i = k
      · exact hik ▸ List.mem_cons_self ..
      · exact List.mem_cons_of_mem _ (h.below j hj i hlt ⟨hi, hik⟩)

end Least

/-! ## What is handed out for one constant -/

/-- What those who want a contested constant get, one after the other: its least numbers that are not
taken from the start. -/
theorem least_handOut {contested : String → Bool} {base : String} (h : contested base = true)
    (taken bases : List String) :
    ∃ ks, Least (fun k => 0 < k ∧ numbered base k ∉ taken) ks
      ∧ ((bases.zip (handOut contested taken bases)).filter fun z => z.1 = base).map Prod.snd
        = ks.map (numbered base) := by
  induction bases generalizing taken with
  | nil => exact ⟨[], .nil, rfl⟩
  | cons b rest ih =>
    unfold handOut
    by_cases hb : contested b = true
    · let first := firstFree taken b taken.length 1
      have hstops : SearchStops taken b 1 first := searchStops_firstFree taken b 1
      obtain ⟨ks, hks, hmap⟩ := ih (numbered b first :: taken)
      simp only [if_pos hb, List.zip_cons_cons]
      by_cases hbase : b = base
      · -- the number that is given now is the least, and the others are those after it
        subst hbase
        refine ⟨first :: ks, .cons ⟨hstops.le, hstops.notMem⟩ ?_ (hks.congr fun j => ?_), ?_⟩
        · exact fun j hj hfree => hfree.2 (hstops.mem_of_lt hfree.1 hj)
        · rw [List.mem_cons, numbered_inj, not_or]
          tauto
        · rw [List.filter_cons_of_pos (by simp), List.map_cons, hmap, List.map_cons]
      · -- a number of another constant does not matter
        refine ⟨ks, hks.congr fun j => ?_, ?_⟩
        · rw [List.mem_cons, numbered_inj_iff, or_iff_right fun heq => hbase heq.1.symm]
        · rw [List.filter_cons_of_neg (by simpa using hbase), hmap]
    · -- a constant that is not contested takes no number
      have hbase : b ≠ base := fun heq => hb (heq ▸ h)
      obtain ⟨ks, hks, hmap⟩ := ih taken
      refine ⟨ks, hks, ?_⟩
      rw [if_neg hb, List.zip_cons_cons, List.filter_cons_of_neg (by simpa using hbase), hmap]

/-! ## The order of numbering -/

/-- What is numbered first: the lesser name and id, and of equal siblings the one listed first. -/
def Precedes (a b : Sibling × Nat) : Prop :=
  a.1.key < b.1.key ∨ a.1.key = b.1.key ∧ a.2 < b.2

theorem Precedes.asymm {p q : Sibling × Nat} (h : Precedes p q) : ¬Precedes q p := by
  rcases h with hlt | ⟨heq, hlt⟩
  · rintro (hgt | ⟨heq, -⟩)
    · exact Std.lt_irrefl (Std.lt_trans hlt hgt)
    · exact Std.lt_irrefl (heq ▸ hlt)
  · rintro (hgt | ⟨-, hgt⟩)
    · exact Std.lt_irrefl (heq ▸ hgt)
    · omega

variable (siblings : List Sibling) (reserved : Option String)

/-- The siblings whose names give a constant, each with its place. -/
def claimants (base : String) : List (Sibling × Nat) :=
  siblings.zipIdx.filter fun p => constantName p.1.name = base

/-- The same in the order in which they are numbered. -/
def row (base : String) : List (Sibling × Nat) :=
  ((ordered siblings).filter fun c => c.base = base).map fun c => (c.sibling, c.place)

theorem row_perm (base : String) : (row siblings base).Perm (claimants siblings base) := by
  have hcandidates : ((candidates siblings).filter fun c => c.base = base).map
      (fun c => (c.sibling, c.place)) = claimants siblings base := by
    simp only [candidates, claimants, List.filter_map, List.map_map, Function.comp_def]
    exact List.map_id' _
  rw [← hcandidates]
  exact ((ordered_perm siblings).filter _).map _

/-- Among candidates for one constant the siblings decide. -/
theorem key_le_key_iff {a b : Candidate} (h : a.base = b.base) :
    a.key ≤ b.key ↔ a.sibling.key ≤ b.sibling.key := by
  show @LE.le (List String) List.instLE (a.base :: [a.sibling.name, a.sibling.id])
      (b.base :: [b.sibling.name, b.sibling.id])
    ↔ @LE.le (List String) List.instLE [a.sibling.name, a.sibling.id]
      [b.sibling.name, b.sibling.id]
  rw [h, List.cons_le_cons_iff, or_iff_right (Std.lt_irrefl), and_iff_right rfl]

theorem pairwise_row (base : String) : (row siblings base).Pairwise Precedes := by
  have hplaces : (candidates siblings).Pairwise fun a b => a.place < b.place := by
    rw [← List.pairwise_map, map_place_candidates]
    exact List.pairwise_lt_range
  have hordered : (ordered siblings).Pairwise
      fun a b => a.key ≤ b.key ∧ (b.key ≤ a.key → a.place < b.place) :=
    pairwise_mergeSort_stable Candidate.key hplaces
  refine List.pairwise_map.mpr ((hordered.filter _).imp_of_mem ?_)
  intro a b ha hb hab
  -- with one constant it is up to name and id, and then to the place
  have hbase : a.base = b.base :=
    (of_decide_eq_true (List.mem_filter.mp ha).2).trans
      (of_decide_eq_true (List.mem_filter.mp hb).2).symm
  rw [key_le_key_iff hbase, key_le_key_iff hbase.symm] at hab
  rcases Std.lt_trichotomy a.sibling.key b.sibling.key with hlt | heq | hgt
  · exact .inl hlt
  · exact .inr ⟨heq, hab.2 (Std.le_of_eq heq.symm)⟩
  · exact absurd hab.1 (Std.not_le.mpr hgt)

/-! ## The numbers of siblings -/

/-- The constants that the names of siblings give. -/
def wanted : List String := siblings.map fun s => constantName s.name

/-- A number whose constant is neither reserved nor that of one sibling alone. -/
def IsOpen (base : String) (k : Nat) : Prop :=
  0 < k ∧ some (numbered base k) ≠ reserved
    ∧ (wanted siblings).count (numbered base k) ≠ 1

/-- How siblings are numbered. One that wants a constant alone, and none that is reserved, gets it.
The others that want a constant have the least open numbers, in their order. -/
structure Numbering (constants : List String) : Prop where
  length_eq : constants.length = siblings.length
  alone : ∀ (i : Nat) (s : Sibling), siblings[i]? = some s →
    (wanted siblings).count (constantName s.name) = 1 → some (constantName s.name) ≠ reserved →
      constants[i]? = some (constantName s.name)
  shared : ∀ base, (wanted siblings).count base ≠ 1 ∨ some base = reserved →
    ∃ (order : List (Sibling × Nat)) (ks : List Nat),
      order.Perm (claimants siblings base) ∧ order.Pairwise Precedes
        ∧ Least (IsOpen siblings reserved base) ks
        ∧ order.map (fun p => constants[p.2]?) = ks.map fun k => some (numbered base k)

theorem contestedBy_eq_true_iff {base : String} :
    contestedBy siblings reserved base = true
      ↔ 1 < (wanted siblings).count base ∨ some base = reserved := by
  unfold contestedBy isContested
  rw [map_base_candidates, ← wanted, Bool.or_eq_true, decide_eq_true_eq, beq_iff_eq,
    eq_comm (a := reserved)]

/-- A constant is taken before any is numbered if it is reserved or wanted by one sibling alone. -/
theorem mem_kept_iff {x : String} :
    x ∈ kept siblings reserved
      ↔ some x = reserved ∨ (wanted siblings).count x = 1 := by
  have hpos := List.count_pos_iff (a := x) (l := wanted siblings)
  have hcontested : contestedBy siblings reserved x = true
      ↔ 1 < (wanted siblings).count x ∨ some x = reserved := contestedBy_eq_true_iff ..
  unfold kept
  rw [List.mem_append, Option.mem_toList, eq_comm (b := some x), List.mem_filter,
    map_base_candidates, ← wanted, Bool.not_eq_true', Bool.eq_false_iff, ne_eq, hcontested, ← hpos]
  by_cases hreserved : some x = reserved
  · simp [hreserved]
  · simp only [hreserved, or_false, false_or]
    omega

theorem isOpen_iff {base : String} {k : Nat} :
    IsOpen siblings reserved base k ↔ 0 < k ∧ numbered base k ∉ kept siblings reserved := by
  rw [IsOpen, mem_kept_iff, not_or]

/-- What is given to a candidate stands in its place. -/
theorem getElem?_place {z : Candidate × String} (h : z ∈ assigned siblings reserved) :
    (distinctConstants siblings reserved)[z.1.place]? = some z.2 := by
  obtain ⟨i, hi⟩ := List.getElem?_of_mem ((placed_perm siblings reserved).mem_iff.mpr h)
  have hcandidate : (candidates siblings)[i]? = some z.1 := by
    rw [← map_fst_placed siblings reserved, List.getElem?_map, hi]
    rfl
  have hplace : (List.range siblings.length)[i]? = some z.1.place := by
    rw [← map_place_candidates, List.getElem?_map, hcandidate]
    rfl
  obtain ⟨hi', hrange⟩ := List.getElem?_eq_some_iff.mp hplace
  rw [List.getElem_range] at hrange
  rw [← hrange, ← map_snd_placed, List.getElem?_map, hi]
  rfl

/-- Those who want a contested constant have its least open numbers. -/
theorem exists_least_row {base : String} (h : contestedBy siblings reserved base = true) :
    ∃ ks, Least (IsOpen siblings reserved base) ks
      ∧ (row siblings base).map (fun p => (distinctConstants siblings reserved)[p.2]?)
        = ks.map fun k => some (numbered base k) := by
  obtain ⟨ks, hks, hmap⟩ := least_handOut h (kept siblings reserved)
    ((ordered siblings).map Candidate.base)
  refine ⟨ks, hks.congr fun k => (isOpen_iff siblings reserved).symm, ?_⟩
  have hgiven : ((assigned siblings reserved).filter fun z => z.1.base = base).map Prod.snd
      = ks.map (numbered base) := by
    rw [← hmap, List.zip_map_left, List.filter_map, List.map_map]
    rfl
  -- the row and what is given are the two sides of the same pairs
  have hfirst : (ordered siblings).filter (fun c => c.base = base)
      = ((assigned siblings reserved).filter fun z => z.1.base = base).map Prod.fst := by
    rw [← map_fst_assigned siblings reserved, List.filter_map]
    rfl
  calc (row siblings base).map (fun p => (distinctConstants siblings reserved)[p.2]?)
      = ((assigned siblings reserved).filter fun z => z.1.base = base).map
          fun z => (distinctConstants siblings reserved)[z.1.place]? := by
        rw [row, hfirst, List.map_map, List.map_map]
        rfl
    _ = ((assigned siblings reserved).filter fun z => z.1.base = base).map
          fun z => some z.2 :=
        List.map_congr_left fun z hz =>
          getElem?_place siblings reserved (List.mem_filter.mp hz).1
    _ = (ks.map (numbered base)).map some := by rw [← hgiven, List.map_map]; rfl
    _ = ks.map fun k => some (numbered base k) := List.map_map

/-- Siblings are numbered. -/
theorem numbering_distinctConstants :
    Numbering siblings reserved (distinctConstants siblings reserved) where
  length_eq := length_distinctConstants siblings reserved
  alone := by
    intro i s hs hcount hreserved
    obtain ⟨c, hc, hsuits⟩ :=
      exists_getElem?_of_forall₂ (suits_distinctConstants siblings reserved) hs
    have hcontested : ¬contestedBy siblings reserved (constantName s.name) = true := by
      rw [contestedBy_eq_true_iff, hcount]
      simp [hreserved]
    rw [Suits, if_neg hcontested] at hsuits
    rw [hc, hsuits]
  shared := by
    intro base hshared
    by_cases hcontested : contestedBy siblings reserved base = true
    · obtain ⟨ks, hks, hmap⟩ := exists_least_row siblings reserved hcontested
      exact ⟨row siblings base, ks, row_perm siblings base, pairwise_row siblings base, hks, hmap⟩
    · -- a constant that no sibling wants
      rw [contestedBy_eq_true_iff, not_or] at hcontested
      have hcount : (wanted siblings).count base = 0 := by
        have := hshared.resolve_right hcontested.2
        omega
      have hnone : claimants siblings base = [] := by
        refine List.filter_eq_nil_iff.mpr fun p hp hbase => ?_
        refine List.count_eq_zero.mp hcount (List.mem_map.mpr ⟨p.1, ?_, of_decide_eq_true hbase⟩)
        exact List.fst_mem_of_mem_zipIdx hp
      exact ⟨[], [], hnone ▸ .nil, .nil, .nil, rfl⟩

/-! ## Siblings in another order -/

variable {siblings} in
/-- Different siblings keep their constants wherever they are listed. -/
theorem getElem?_distinctConstants_of_moved {siblings' : List Sibling} (hnodup : siblings.Nodup)
    (σ : Equiv.Perm Nat) (h : ∀ i : Nat, siblings'[i]? = siblings[σ i]?) (i : Nat) :
    (distinctConstants siblings' reserved)[i]? = (distinctConstants siblings reserved)[σ i]? := by
  have hlength : ∀ (l : List Sibling) (j : Nat),
      (distinctConstants l reserved)[j]? = none ↔ l[j]? = none := by
    intro l j
    rw [List.getElem?_eq_none_iff, List.getElem?_eq_none_iff, length_distinctConstants]
  cases hs : siblings'[i]? with
  | none => rw [(hlength _ _).mpr hs, (hlength _ _).mpr (h i ▸ hs)]
  | some s =>
    obtain ⟨c, hc⟩ := Option.ne_none_iff_exists'.mp (mt (hlength siblings' i).mp (by simp [hs]))
    -- the pair of sibling and constant is there in the other order, and in one place only
    have hperm := perm_of_moved hnodup σ h
    have hpair : (s, c) ∈ siblings.zip (distinctConstants siblings reserved) :=
      (zip_distinctConstants_perm_of_perm hperm reserved).mem_iff.mpr
        (List.mem_of_getElem? (List.getElem?_zip_eq_some.mpr ⟨hs, hc⟩))
    obtain ⟨j, hj⟩ := List.getElem?_of_mem hpair
    obtain ⟨hsj, hcj⟩ := List.getElem?_zip_eq_some.mp hj
    have hmoved : j = σ i := place_unique hnodup hsj (h i ▸ hs)
    rw [hc, ← hmoved, hcj]

/-- **The numbers of siblings.** A sibling that wants a constant alone has it, if it is not reserved;
the others that want a constant have the least numbers open for it, by name and id. Siblings in
another order take their constants with them, and equal ones have the same constants together. -/
theorem distinctConstants_numbered :
    Numbering siblings reserved (distinctConstants siblings reserved)
      ∧ (siblings.Nodup → ∀ (siblings' : List Sibling) (σ : Equiv.Perm Nat),
        (∀ i : Nat, siblings'[i]? = siblings[σ i]?) →
          ∀ i : Nat, (distinctConstants siblings' reserved)[i]?
            = (distinctConstants siblings reserved)[σ i]?)
      ∧ ∀ siblings', siblings.Perm siblings' →
        (siblings.zip (distinctConstants siblings reserved)).Perm
          (siblings'.zip (distinctConstants siblings' reserved)) :=
  ⟨numbering_distinctConstants siblings reserved,
    fun hnodup _ σ h => getElem?_distinctConstants_of_moved reserved hnodup σ h,
    fun _ h => zip_distinctConstants_perm_of_perm h reserved⟩

/-- Two siblings that want a constant, and one whose constant is the first number of theirs. -/
def crowded : List Sibling := [⟨"A", "1"⟩, ⟨"a", "2"⟩, ⟨"A__1", "3"⟩]

theorem distinctConstants_numbered_crowded :
    crowded.Nodup ∧ Numbering crowded none (distinctConstants crowded none)
      ∧ (distinctConstants [⟨"a", "2"⟩, ⟨"A", "1"⟩, ⟨"A__1", "3"⟩] none)[0]?
        = (distinctConstants crowded none)[1]? := by
  have hnodup : crowded.Nodup := by decide
  obtain ⟨hnumbering, hmoved, -⟩ := distinctConstants_numbered crowded none
  refine ⟨hnodup, hnumbering, ?_⟩
  refine hmoved hnodup [⟨"a", "2"⟩, ⟨"A", "1"⟩, ⟨"A__1", "3"⟩] (Equiv.swap 0 1) (fun i => ?_) 0
  match i with
  | 0 => rfl
  | 1 => rfl
  | 2 => rfl
  | i + 3 => rw [Equiv.swap_apply_of_ne_of_ne (by omega) (by omega)]; rfl

end TypedEntities.Java
