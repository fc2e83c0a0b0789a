import Mathlib
import TypedEntities.Proofs.Java.Numbering

/-!
# A selection of siblings

The constant of a sibling depends on who stands beside it. Some of the siblings, listed alone, keep
their constants exactly if none of those who are left out has a part in them: `keeps_iff`. A sibling
with a number keeps it if another one of the selection wants the same constant, so that they are
numbered, and if those with the numbers before it are of the selection.

No number is left out (`Named.exists_of_lt`) and numbers follow the order of names
(`Named.lt_of_key_lt`), so that a number is determined by who has the numbers before it; the proof
goes up along the numbers.
-/

namespace TypedEntities.Java

variable {siblings : List Sibling} {s t : Sibling} {c c' : String} {k j : Nat}

/-! ## The constant of a sibling -/

/-- A sibling has a constant among others. -/
def Named (siblings : List Sibling) (s : Sibling) (c : String) : Prop :=
  (s, c) ∈ siblings.zip (distinctConstants siblings none)

/-- A sibling and its constant stand at the same place. -/
theorem named_iff :
    Named siblings s c
      ↔ ∃ i : Nat, siblings[i]? = some s ∧ (distinctConstants siblings none)[i]? = some c := by
  rw [Named, List.mem_iff_getElem?]
  simp only [List.getElem?_zip_eq_some]

theorem Named.mem (h : Named siblings s c) : s ∈ siblings := (List.of_mem_zip h).1

/-- Each sibling has a constant. -/
theorem exists_named (h : s ∈ siblings) : ∃ c, Named siblings s c := by
  obtain ⟨i, hi⟩ := List.getElem?_of_mem h
  obtain ⟨c, hc, -⟩ := exists_getElem?_of_forall₂ (suits_distinctConstants siblings none) hi
  exact ⟨c, named_iff.mpr ⟨i, hi, hc⟩⟩

/-- Siblings have different constants. -/
theorem Named.eq (hs : Named siblings s c) (ht : Named siblings t c) : s = t := by
  obtain ⟨i, hsi, hci⟩ := named_iff.mp hs
  obtain ⟨j, htj, hcj⟩ := named_iff.mp ht
  obtain rfl : i = j := place_unique (nodup_distinctConstants siblings none) hci hcj
  exact Option.some.inj (hsi.symm.trans htj)

/-- A sibling that is listed once has one constant. -/
theorem Named.unique (hnodup : siblings.Nodup) (h : Named siblings s c)
    (h' : Named siblings s c') : c = c' := by
  obtain ⟨i, hsi, hci⟩ := named_iff.mp h
  obtain ⟨j, hsj, hcj⟩ := named_iff.mp h'
  obtain rfl : i = j := place_unique hnodup hsi hsj
  exact Option.some.inj (hci.symm.trans hcj)

/-! ## Alone or with a number -/

/-- No other sibling wants the constant of one. -/
def Alone (siblings : List Sibling) (s : Sibling) : Prop :=
  ∀ t ∈ siblings, constantName t.name = constantName s.name → t = s

/-- A constant is wanted as often as names come to it. -/
theorem count_wanted (base : String) (siblings : List Sibling) :
    (wanted siblings).count base = siblings.countP fun t => constantName t.name = base := by
  rw [wanted, List.count_eq_countP, List.countP_map]
  exact List.countP_congr fun t _ => by simp

theorem count_wanted_eq_one_iff (hnodup : siblings.Nodup) (h : s ∈ siblings) :
    (wanted siblings).count (constantName s.name) = 1 ↔ Alone siblings s := by
  rw [count_wanted]
  constructor
  · intro hcount t ht hbase
    rw [List.countP_eq_length_filter, List.length_eq_one_iff] at hcount
    obtain ⟨a, ha⟩ := hcount
    -- whoever wants the constant is the one that is counted
    have hall : ∀ u ∈ siblings, constantName u.name = constantName s.name → u = a := by
      intro u hu hubase
      rw [← List.mem_singleton, ← ha]
      exact List.mem_filter.mpr ⟨hu, by simpa using hubase⟩
    exact (hall t ht hbase).trans (hall s h rfl).symm
  · intro halone
    have hcount := List.count_eq_one_of_mem hnodup h
    rw [List.count_eq_countP] at hcount
    rw [← hcount]
    refine List.countP_congr fun t ht => ?_
    rw [decide_eq_true_eq, beq_iff_eq]
    exact ⟨halone t ht, fun heq => heq ▸ rfl⟩

/-- A sibling that is alone keeps its constant. -/
theorem named_of_alone (hnodup : siblings.Nodup) (h : s ∈ siblings) (halone : Alone siblings s) :
    Named siblings s (constantName s.name) := by
  obtain ⟨i, hi⟩ := List.getElem?_of_mem h
  refine named_iff.mpr ⟨i, hi, ?_⟩
  exact (numbering_distinctConstants siblings none).alone i s hi
    ((count_wanted_eq_one_iff hnodup h).mpr halone) (Option.some_ne_none _)

/-- Those who want the constant of a sibling that is not alone, in their order, with their
numbers. -/
theorem exists_row (hnodup : siblings.Nodup) (h : s ∈ siblings) (hshared : ¬Alone siblings s) :
    ∃ (order : List (Sibling × Nat)) (ks : List Nat),
      (∀ p, p ∈ order ↔ siblings[p.2]? = some p.1 ∧ constantName p.1.name = constantName s.name)
        ∧ order.Pairwise Precedes ∧ Least (IsOpen siblings none (constantName s.name)) ks
        ∧ List.Forall₂ (fun p k => (distinctConstants siblings none)[p.2]?
          = some (numbered (constantName s.name) k)) order ks := by
  rw [← count_wanted_eq_one_iff hnodup h] at hshared
  obtain ⟨order, ks, hperm, horder, hks, hmap⟩ :=
    (numbering_distinctConstants siblings none).shared _ (.inl hshared)
  refine ⟨order, ks, fun p => ?_, horder, hks, ?_⟩
  · rw [hperm.mem_iff, claimants, List.mem_filter, decide_eq_true_eq, List.mem_zipIdx_iff_getElem?]
  · rwa [← List.forall₂_eq_eq_eq, List.forall₂_map_left_iff, List.forall₂_map_right_iff] at hmap

/-- A sibling has its constant as it is if it wants it alone, and else with a number. -/
theorem Named.cases (hnodup : siblings.Nodup) (h : Named siblings s c) :
    (Alone siblings s ∧ c = constantName s.name)
      ∨ (¬Alone siblings s ∧ ∃ k, 0 < k ∧ c = numbered (constantName s.name) k) := by
  by_cases halone : Alone siblings s
  · exact .inl ⟨halone, h.unique hnodup (named_of_alone hnodup h.mem halone)⟩
  · obtain ⟨i, hsi, hci⟩ := named_iff.mp h
    obtain ⟨order, ks, hmem, -, hks, hrow⟩ := exists_row hnodup h.mem halone
    obtain ⟨k, hk, hnumber⟩ := exists_right_of_mem hrow ((hmem (s, i)).mpr ⟨hsi, rfl⟩)
    exact .inr ⟨halone, k, (hks.holds k hk).1, Option.some.inj (hci.symm.trans hnumber)⟩

/-- One that is not alone gets a number. -/
theorem exists_numbered (hnodup : siblings.Nodup) (h : s ∈ siblings)
    (hshared : ¬Alone siblings s) :
    ∃ k, 0 < k ∧ Named siblings s (numbered (constantName s.name) k) := by
  obtain ⟨c, hc⟩ := exists_named h
  obtain ⟨-, k, hk, rfl⟩ := (hc.cases hnodup).resolve_left fun hcase => hshared hcase.1
  exact ⟨k, hk, hc⟩

/-- Only one that is not alone has a number, and the number is not zero. -/
theorem Named.shared (hnodup : siblings.Nodup)
    (h : Named siblings s (numbered (constantName s.name) k)) : 0 < k ∧ ¬Alone siblings s := by
  rcases h.cases hnodup with ⟨-, heq⟩ | ⟨hshared, j, hj, heq⟩
  · exact absurd heq numbered_ne
  · obtain rfl := numbered_inj.mp heq
    exact ⟨hj, hshared⟩

/-- Each number before that of a sibling is that of another, which may have it by its name. -/
theorem Named.exists_of_lt (hnodup : siblings.Nodup)
    (h : Named siblings s (numbered (constantName s.name) k)) (hj : 0 < j) (hjk : j < k) :
    ∃ t, Named siblings t (numbered (constantName s.name) j) := by
  by_cases hopen : IsOpen siblings none (constantName s.name) j
  · obtain ⟨i, hsi, hci⟩ := named_iff.mp h
    obtain ⟨order, ks, hmem, -, hks, hrow⟩ := exists_row hnodup h.mem (h.shared hnodup).2
    obtain ⟨k', hk', hnumber⟩ := exists_right_of_mem hrow ((hmem (s, i)).mpr ⟨hsi, rfl⟩)
    obtain rfl : k = k' := numbered_inj.mp (Option.some.inj (hci.symm.trans hnumber))
    obtain ⟨p, hp, hnumber⟩ := exists_left_of_mem hrow (hks.below k hk' j hjk hopen)
    exact ⟨p.1, named_iff.mpr ⟨p.2, ((hmem p).mp hp).1, hnumber⟩⟩
  · have hcount : (wanted siblings).count (numbered (constantName s.name) j) = 1 := by
      by_contra hne
      exact hopen ⟨hj, Option.some_ne_none _, hne⟩
    have hwanted := List.count_pos_iff.mp (hcount ▸ Nat.one_pos)
    obtain ⟨t, ht, hname⟩ := List.mem_map.mp hwanted
    rw [← hname] at hcount ⊢
    exact ⟨t, named_of_alone hnodup ht ((count_wanted_eq_one_iff hnodup ht).mp hcount)⟩

/-- Numbers follow names and ids. -/
theorem Named.lt_of_key_lt (hnodup : siblings.Nodup)
    (hs : Named siblings s (numbered (constantName s.name) k))
    (ht : Named siblings t (numbered (constantName t.name) j))
    (hname : constantName t.name = constantName s.name) (hkey : s.key < t.key) : k < j := by
  obtain ⟨i, hsi, hci⟩ := named_iff.mp hs
  obtain ⟨i', hti, hci'⟩ := named_iff.mp ht
  obtain ⟨order, ks, hmem, horder, hks, hrow⟩ := exists_row hnodup hs.mem (hs.shared hnodup).2
  obtain ⟨k', j', hk, hj, hlt⟩ := exists_rel_of_pairwise (fun _ _ => Precedes.asymm) hrow horder
    hks.ascending ((hmem (s, i)).mpr ⟨hsi, rfl⟩) ((hmem (t, i')).mpr ⟨hti, hname⟩) (.inl hkey)
  rw [hname] at hci'
  rw [hci, Option.some.injEq, numbered_inj] at hk
  rw [hci', Option.some.injEq, numbered_inj] at hj
  rwa [hk, hj]

/-! ## What a selection keeps -/

/-- A selection has all that gives its members with numbers these numbers: another who wants the
same constant, and all who have the numbers before. -/
structure Settled (whole part : List Sibling) : Prop where
  shared : ∀ s ∈ part, ∀ k, Named whole s (numbered (constantName s.name) k) → ¬Alone part s
  before : ∀ s ∈ part, ∀ k, Named whole s (numbered (constantName s.name) k) →
    ∀ j, 0 < j → j < k → ∀ t, Named whole t (numbered (constantName s.name) j) → t ∈ part

variable {whole part : List Sibling}

theorem Alone.of_subset (h : Alone whole s) (hsub : part ⊆ whole) : Alone part s :=
  fun t ht => h t (hsub ht)

/-- Where constants are kept, the selection settles the numbers. -/
theorem settled_of_keeps (hwhole : whole.Nodup) (hpart : part.Nodup)
    (h : ∀ s c, Named part s c → Named whole s c) : Settled whole part := by
  have hkept : ∀ s ∈ part, ∀ k, Named whole s (numbered (constantName s.name) k) →
      Named part s (numbered (constantName s.name) k) := by
    intro s hs k hk
    obtain ⟨c, hc⟩ := exists_named hs
    rwa [hk.unique hwhole (h s c hc)]
  constructor
  · intro s hs k hk
    exact ((hkept s hs k hk).shared hpart).2
  · intro s hs k hk j hj hjk t ht
    obtain ⟨u, hu⟩ := (hkept s hs k hk).exists_of_lt hpart hj hjk
    rw [ht.eq (h u _ hu)]
    exact hu.mem

theorem Settled.alone (h : Settled whole part) (hwhole : whole.Nodup) (hsub : part ⊆ whole)
    (hs : s ∈ part) (halone : Alone part s) : Alone whole s := by
  by_contra hshared
  obtain ⟨k, -, hk⟩ := exists_numbered hwhole (hsub hs) hshared
  exact h.shared s hs k hk halone

/-- The members of a selection with numbers below a bound keep them. -/
def KeepsBelow (whole part : List Sibling) (bound : Nat) : Prop :=
  ∀ k < bound, ∀ s ∈ part, Named whole s (numbered (constantName s.name) k) →
    Named part s (numbered (constantName s.name) k)

section Step

variable (hwhole : whole.Nodup) (hpart : part.Nodup) (hsub : part ⊆ whole)
  (h : Settled whole part) (hbelow : KeepsBelow whole part k) (hs : s ∈ part)
  (hk : Named whole s (numbered (constantName s.name) k))
include hwhole hpart hsub h hbelow hs hk

/-- In the selection as well the numbers before that of a member are those of others. -/
theorem exists_before (hj : 0 < j) (hjk : j < k) :
    ∃ t, t ≠ s ∧ Named part t (numbered (constantName s.name) j) := by
  obtain ⟨t, ht⟩ := hk.exists_of_lt hwhole hj hjk
  have htpart : t ∈ part := h.before s hs k hk j hj hjk t ht
  refine ⟨t, ?_, ?_⟩
  · rintro rfl
    exact absurd (numbered_inj.mp (hk.unique hwhole ht)) (by omega)
  · rcases ht.cases hwhole with ⟨halone, heq⟩ | ⟨-, j', -, heq⟩
    · rw [heq]
      exact named_of_alone hpart htpart (halone.of_subset hsub)
    · obtain ⟨hname, rfl⟩ := numbered_inj_iff.mp heq
      rw [hname] at ht ⊢
      exact hbelow j hjk t htpart ht

/-- In the selection nobody else has the number of a member. -/
theorem eq_of_named (ht : Named part t (numbered (constantName s.name) k)) {m : Nat}
    (hm : Named part s (numbered (constantName s.name) m)) (hkm : k < m) : t = s := by
  rcases ht.cases hpart with ⟨halone, heq⟩ | ⟨-, k', -, heq⟩
  · -- one that has it by its name has it among all as well
    rw [heq] at hk
    exact (named_of_alone hwhole (hsub ht.mem) (h.alone hwhole hsub ht.mem halone)).eq hk
  · obtain ⟨hname, rfl⟩ := numbered_inj_iff.mp heq
    by_contra hne
    obtain ⟨j, -, hc⟩ := exists_numbered hwhole (hsub ht.mem) fun halone =>
      hne (halone s (hsub hs) hname).symm
    rw [hname] at ht
    rcases Std.lt_trichotomy s.key t.key with hlt | heq | hgt
    · exact absurd (hm.lt_of_key_lt hpart ht hname.symm hlt) (by omega)
    · exact hne (Sibling.eq_of_key_eq heq).symm
    · -- one that comes first has a lesser number, and keeps it
      have hjk : j < k := hc.lt_of_key_lt hwhole hk hname hgt
      have hkept := (hbelow j hjk t ht.mem hc).unique hpart ht
      exact absurd (numbered_inj.mp hkept) (by omega)

theorem named_of_keepsBelow : Named part s (numbered (constantName s.name) k) := by
  obtain ⟨m, hm, hc⟩ := exists_numbered hpart hs (h.shared s hs k hk)
  rcases Nat.lt_trichotomy m k with hlt | rfl | hgt
  · obtain ⟨t, hne, ht⟩ := exists_before hwhole hpart hsub h hbelow hs hk hm hlt
    exact absurd (ht.eq hc) hne
  · exact hc
  · obtain ⟨t, ht⟩ := hc.exists_of_lt hpart (hk.shared hwhole).1 hgt
    rwa [eq_of_named hwhole hpart hsub h hbelow hs hk ht hc hgt] at ht

end Step

/-- In a selection that settles the numbers every constant is kept, up to any bound. -/
theorem keepsBelow (hwhole : whole.Nodup) (hpart : part.Nodup) (hsub : part ⊆ whole)
    (h : Settled whole part) (bound : Nat) : KeepsBelow whole part bound := by
  induction bound with
  | zero => nofun
  | succ bound ih =>
    intro k hk s hs hnumber
    rcases Nat.lt_succ_iff_lt_or_eq.mp hk with hlt | rfl
    · exact ih k hlt s hs hnumber
    · exact named_of_keepsBelow hwhole hpart hsub h ih hs hnumber

/-- **The members of a selection keep their constants** exactly if it is settled. -/
theorem keeps_iff (hwhole : whole.Nodup) (hpart : part.Nodup) (hsub : part ⊆ whole) :
    (∀ s c, Named part s c → Named whole s c) ↔ Settled whole part := by
  refine ⟨settled_of_keeps hwhole hpart, fun h s c hc => ?_⟩
  obtain ⟨c', hc'⟩ := exists_named (hsub hc.mem)
  rcases hc'.cases hwhole with ⟨halone, rfl⟩ | ⟨-, k, -, rfl⟩
  · have hkept := named_of_alone hpart hc.mem (halone.of_subset hsub)
    rwa [hc.unique hpart hkept]
  · have hkept := keepsBelow hwhole hpart hsub h (k + 1) k k.lt_succ_self s hc.mem hc'
    rwa [hc.unique hpart hkept]

end TypedEntities.Java
