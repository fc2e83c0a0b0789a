import Mathlib

/-!
# Lists

Listings are sorted by a key before anything is made of them. Where no two entries share a key the
sorted list does not depend on the order of the given one (`mergeSort_eq_of_perm`): that is what
makes the sources independent of the order in which a server lists things.
-/

namespace TypedEntities

/-! ## Sorting by a key -/

section Sorting

variable {α κ : Type} [LE κ] [Std.IsLinearOrder κ] [DecidableLE κ]

theorem decide_key_trans (key : α → κ) (a b c : α) (hab : decide (key a ≤ key b) = true)
    (hbc : decide (key b ≤ key c) = true) : decide (key a ≤ key c) = true :=
  decide_eq_true (Std.le_trans (of_decide_eq_true hab) (of_decide_eq_true hbc))

theorem decide_key_total (key : α → κ) (a b : α) :
    (decide (key a ≤ key b) || decide (key b ≤ key a)) = true := by
  rcases Std.le_total (a := key a) (b := key b) with h | h <;> simp [h]

/-- A list sorted by a key ascends in the key. -/
theorem pairwise_mergeSort_key (key : α → κ) (l : List α) :
    (l.mergeSort fun a b => key a ≤ key b).Pairwise fun a b => key a ≤ key b :=
  (List.pairwise_mergeSort (decide_key_trans key) (decide_key_total key) l).imp
    of_decide_eq_true

omit [DecidableLE κ] in
/-- Two lists that ascend in a key and hold the same entries are equal if no two entries share a
key. -/
theorem eq_of_perm_of_pairwise_key {key : α → κ} {l₁ l₂ : List α} (h : l₁.Perm l₂)
    (inj : ∀ a ∈ l₁, ∀ b ∈ l₁, key a = key b → a = b)
    (h₁ : l₁.Pairwise fun a b => key a ≤ key b) (h₂ : l₂.Pairwise fun a b => key a ≤ key b) :
    l₁ = l₂ :=
  List.Perm.eq_of_pairwise
    (fun a b ha hb hab hba => inj a ha b (h.mem_iff.mpr hb) (Std.le_antisymm hab hba)) h₁ h₂ h

/-- Sorting by a key that tells the entries apart erases the order of the list. -/
theorem mergeSort_eq_of_perm (key : α → κ) {l₁ l₂ : List α} (h : l₁.Perm l₂)
    (inj : ∀ a ∈ l₁, ∀ b ∈ l₁, key a = key b → a = b) :
    l₁.mergeSort (fun a b => key a ≤ key b) = l₂.mergeSort fun a b => key a ≤ key b := by
  have hs := List.mergeSort_perm l₁ fun a b => decide (key a ≤ key b)
  refine eq_of_perm_of_pairwise_key
    ((hs.trans h).trans (List.mergeSort_perm l₂ _).symm) ?_
    (pairwise_mergeSort_key key l₁) (pairwise_mergeSort_key key l₂)
  intro a ha b hb
  exact inj a (hs.mem_iff.mp ha) b (hs.mem_iff.mp hb)

/-- Sorting by a key leaves entries with the same key in their order. -/
theorem filter_mergeSort_key (key : α → κ) {k : κ} {p : α → Bool} (hp : ∀ a, p a = true → key a = k)
    (l : List α) : (l.mergeSort fun a b => key a ≤ key b).filter p = l.filter p := by
  have hkeys : (l.filter p).Pairwise fun a b => decide (key a ≤ key b) = true := by
    rw [List.pairwise_filter]
    refine List.pairwise_of_forall fun a b ha hb => ?_
    rw [hp a ha, hp b hb]
    exact decide_eq_true (Std.le_refl k)
  have hsublist := (List.sublist_mergeSort (decide_key_trans key) (decide_key_total key) hkeys
    List.filter_sublist).filter p
  rw [List.filter_filter] at hsublist
  simp only [Bool.and_self] at hsublist
  exact (hsublist.eq_of_length ((List.mergeSort_perm l _).filter p).length_eq.symm).symm

/-- Entries that a sort cannot tell apart stay in the order of the list. -/
theorem pairwise_mergeSort_stable (key : α → κ) {R : α → α → Prop} {l : List α} (h : l.Pairwise R) :
    (l.mergeSort fun a b => key a ≤ key b).Pairwise
      fun a b => key a ≤ key b ∧ (key b ≤ key a → R a b) := by
  rw [List.pairwise_iff_forall_sublist]
  intro a b hab
  have hle := List.pairwise_iff_forall_sublist.mp (pairwise_mergeSort_key key l) hab
  refine ⟨hle, fun hge => List.pairwise_iff_forall_sublist.mp h ?_⟩
  -- the two stand in the part of the list that has their key, which sorting leaves alone
  let same : α → Bool := fun c => decide (key c ≤ key a) && decide (key a ≤ key c)
  have hsame : ∀ c, same c = true → key c = key a := fun c hc => by
    obtain ⟨hca, hac⟩ := Bool.and_eq_true_iff.mp hc
    exact Std.le_antisymm (of_decide_eq_true hca) (of_decide_eq_true hac)
  have hpair := hab.filter same
  rw [filter_mergeSort_key key hsame] at hpair
  have hkept : [a, b].filter same = [a, b] := by
    simp [same, hle, hge, Std.le_refl]
  rw [hkept] at hpair
  exact hpair.trans List.filter_sublist

end Sorting

/-! ## Lists entry by entry -/

variable {α β : Type}

/-- Lists whose entries have different values under a function hold the same if the values are the
same. -/
theorem perm_of_map_perm {f : α → β} {l₁ l₂ : List α} (h : (l₁.map f).Perm (l₂.map f))
    (hnodup : (l₁.map f).Nodup) (inj : ∀ a ∈ l₁, ∀ b ∈ l₂, f a = f b → a = b) : l₁.Perm l₂ := by
  have hnodup₂ : (l₂.map f).Nodup := h.nodup_iff.mp hnodup
  refine (List.perm_ext_iff_of_nodup (.of_map f hnodup) (.of_map f hnodup₂)).mpr fun a => ?_
  constructor
  · intro ha
    obtain ⟨b, hb, heq⟩ := List.mem_map.mp (h.mem_iff.mp (List.mem_map_of_mem ha))
    rwa [inj a ha b hb heq.symm]
  · intro ha
    obtain ⟨b, hb, heq⟩ := List.mem_map.mp (h.mem_iff.mpr (List.mem_map_of_mem ha))
    rwa [← inj b hb a ha heq]

/-- An entry on the left has its partner on the right. -/
theorem exists_right_of_mem {R : α → β → Prop} {l : List α} {r : List β} (h : List.Forall₂ R l r)
    {a : α} (ha : a ∈ l) : ∃ b ∈ r, R a b := by
  obtain ⟨i, hi, rfl⟩ := List.getElem_of_mem ha
  have hi' : i < r.length := by rw [← h.length_eq]; exact hi
  exact ⟨r[i], List.getElem_mem hi', h.get hi hi'⟩

/-- An entry on the right has its partner on the left. -/
theorem exists_left_of_mem {R : α → β → Prop} {l : List α} {r : List β} (h : List.Forall₂ R l r)
    {b : β} (hb : b ∈ r) : ∃ a ∈ l, R a b :=
  exists_right_of_mem h.flip hb

/-- Where one relation orders the left list and another the right, what is related to ordered entries
is ordered. -/
theorem exists_rel_of_pairwise {R : α → β → Prop} {P : α → α → Prop} {Q : β → β → Prop}
    (hP : ∀ a b, P a b → ¬P b a) {l : List α} {r : List β} (h : List.Forall₂ R l r)
    (hl : l.Pairwise P) (hr : r.Pairwise Q) {a b : α} (ha : a ∈ l) (hb : b ∈ l) (hab : P a b) :
    ∃ x y, R a x ∧ R b y ∧ Q x y := by
  induction h with
  | nil => cases ha
  | cons hR hrest ih =>
    obtain ⟨hlfirst, hlrest⟩ := List.pairwise_cons.mp hl
    obtain ⟨hrfirst, hrrest⟩ := List.pairwise_cons.mp hr
    rcases List.mem_cons.mp ha with rfl | ha' <;> rcases List.mem_cons.mp hb with rfl | hb'
    · exact absurd hab (hP _ _ hab)
    · obtain ⟨y, hy, hRy⟩ := exists_right_of_mem hrest hb'
      exact ⟨_, y, hR, hRy, hrfirst y hy⟩
    · exact absurd (hlfirst a ha') (hP _ _ hab)
    · exact ih hlrest hrrest ha' hb'

/-- Lists of related entries have the same values under functions that respect the relation. -/
theorem map_eq_of_forall₂ {γ : Type} {R : α → γ → Prop} {f : α → β} {g : γ → β}
    (hR : ∀ a c, R a c → f a = g c) {l : List α} {r : List γ} (h : List.Forall₂ R l r) :
    l.map f = r.map g := by
  have hmap : List.Forall₂ (· = ·) (l.map f) (r.map g) := by
    rw [List.forall₂_map_left_iff, List.forall₂_map_right_iff]
    exact h.imp hR
  rwa [List.forall₂_eq_eq_eq] at hmap

/-- What only depends on the left list stays as it is there. -/
theorem map_zipWith_left {γ δ : Type} {f : α → β → γ} {g : γ → δ} {h : α → δ}
    (hf : ∀ a b, g (f a b) = h a) {l : List α} {r : List β} (hlength : l.length ≤ r.length) :
    (List.zipWith f l r).map g = l.map h := by
  calc (List.zipWith f l r).map g
      = ((l.zip r).map Prod.fst).map h := by
        rw [← List.map_uncurry_zip_eq_zipWith, List.map_map, List.map_map]
        exact List.map_congr_left fun p _ => hf p.1 p.2
    _ = l.map h := by rw [List.map_fst_zip hlength]

/-- What is the entry of the right list is that list. -/
theorem map_zipWith_right {γ : Type} {f : α → β → γ} {g : γ → β} (hf : ∀ a b, g (f a b) = b)
    {l : List α} {r : List β} (hlength : r.length ≤ l.length) :
    (List.zipWith f l r).map g = r := by
  rw [List.zipWith_comm, map_zipWith_left (fun b a => hf a b) hlength]
  exact List.map_id r

/-- An entry of a list without repetitions has one place. -/
theorem place_unique {l : List α} (h : l.Nodup) {i j : Nat} {a : α} (hi : l[i]? = some a)
    (hj : l[j]? = some a) : i = j := by
  obtain ⟨hlt, -⟩ := List.getElem?_eq_some_iff.mp hi
  exact (List.getElem?_inj hlt h).mp (hi.trans hj.symm)

/-- A list without repetitions is a permutation of one that has its entries in other places. -/
theorem perm_of_moved {l l' : List α} (hnodup : l.Nodup) (σ : Equiv.Perm Nat)
    (h : ∀ i : Nat, l'[i]? = l[σ i]?) : l.Perm l' := by
  have hnodup' : l'.Nodup := by
    refine List.nodup_iff_injective_getElem.mpr fun a b hab => Fin.ext (σ.injective ?_)
    refine place_unique (a := l'[a.1]) hnodup ?_ ?_
    · rw [← h, List.getElem?_eq_getElem a.2]
    · rw [← h, List.getElem?_eq_getElem b.2]
      exact congrArg some hab.symm
  refine (List.perm_ext_iff_of_nodup hnodup hnodup').mpr fun x => ?_
  rw [List.mem_iff_getElem?, List.mem_iff_getElem?]
  constructor
  · rintro ⟨j, hj⟩
    exact ⟨σ.symm j, by rw [h, Equiv.apply_symm_apply, hj]⟩
  · rintro ⟨j, hj⟩
    exact ⟨σ j, by rw [← h, hj]⟩

/-- Without its repetitions a list holds nothing twice. -/
theorem nodup_eraseDups [DecidableEq α] (l : List α) : l.eraseDups.Nodup := by
  induction hn : l.length using Nat.strong_induction_on generalizing l with
  | _ n ih =>
    cases l with
    | nil => exact .nil
    | cons a l =>
      rw [List.eraseDups_cons, List.nodup_cons, List.mem_eraseDups, List.mem_filter]
      refine ⟨by simp, ih _ ?_ _ rfl⟩
      have := List.length_filter_le (fun b => !b == a) l
      rw [List.length_cons] at hn
      omega

/-- Leaving out others does not change which of two entries is met first. -/
theorem idxOf_lt_of_filter [DecidableEq α] {p : α → Bool} {l : List α} {a b : α} (ha : p a = true)
    (hb : p b = true) (h : (l.filter p).idxOf a < (l.filter p).idxOf b) :
    l.idxOf a < l.idxOf b := by
  induction l with
  | nil => exact absurd h (Nat.lt_irrefl _)
  | cons c l ih =>
    by_cases hc : p c = true
    · rw [List.filter_cons_of_pos hc, List.idxOf_cons, List.idxOf_cons] at h
      rw [List.idxOf_cons, List.idxOf_cons]
      grind
    · have hca : c ≠ a := fun heq => hc (heq ▸ ha)
      have hcb : c ≠ b := fun heq => hc (heq ▸ hb)
      rw [List.filter_cons_of_neg hc] at h
      rw [List.idxOf_cons_ne _ hca, List.idxOf_cons_ne _ hcb]
      exact Nat.succ_lt_succ (ih h)

/-- Without its repetitions a list keeps the order in which its entries are met first. -/
theorem pairwise_idxOf_eraseDups [DecidableEq α] (l : List α) :
    l.eraseDups.Pairwise fun a b => l.idxOf a < l.idxOf b := by
  induction hn : l.length using Nat.strong_induction_on generalizing l with
  | _ n ih =>
    cases l with
    | nil => exact .nil
    | cons a l =>
      have hshorter := List.length_filter_le (fun b => !b == a) l
      rw [List.length_cons] at hn
      have hrest := ih _ (by omega) (l.filter fun b => !b == a) rfl
      -- the entries after the first differ from it
      have hne : ∀ b ∈ (l.filter fun b => !b == a).eraseDups, (!b == a) = true := fun b hb =>
        (List.mem_filter.mp (List.mem_eraseDups.mp hb)).2
      have hne' : ∀ b ∈ (l.filter fun b => !b == a).eraseDups, a ≠ b := fun b hb heq => by
        simpa [heq] using hne b hb
      rw [List.eraseDups_cons, List.pairwise_cons]
      constructor
      · intro b hb
        rw [List.idxOf_cons_self, List.idxOf_cons_ne _ (hne' b hb)]
        exact Nat.succ_pos _
      · refine hrest.imp_of_mem fun {b d} hb hd hlt => ?_
        rw [List.idxOf_cons_ne _ (hne' b hb), List.idxOf_cons_ne _ (hne' d hd)]
        exact Nat.succ_lt_succ (idxOf_lt_of_filter (hne b hb) (hne d hd) hlt)

/-- One entry more is kept unless it repeats one before. -/
theorem eraseDups_concat [DecidableEq α] (l : List α) (a : α) :
    (l ++ [a]).eraseDups = if a ∈ l.eraseDups then l.eraseDups else l.eraseDups ++ [a] := by
  rw [List.eraseDups_append]
  by_cases h : a ∈ l
  · simp [h, List.removeAll]
  · simp [h, List.removeAll, List.eraseDups_cons]

/-- What is met before another entry of an ordered list is related to it. -/
theorem rel_of_idxOf_lt [DecidableEq α] {R : α → α → Prop} {l : List α} (hl : l.Pairwise R)
    {a b : α} (hb : b ∈ l) (h : l.idxOf a < l.idxOf b) : R a b := by
  have hbound : l.idxOf b < l.length := List.idxOf_lt_length_iff.mpr hb
  have hpair := List.pairwise_iff_getElem.mp hl _ _ (h.trans hbound) hbound h
  rwa [List.getElem_idxOf, List.getElem_idxOf] at hpair

/-- What stands in a list is the separator or stands in one of the pieces between. -/
theorem eq_or_mem_piece [DecidableEq α] {l : List α} {a : α} (sep : α) (ha : a ∈ l) :
    a = sep ∨ ∃ piece ∈ l.splitOn sep, a ∈ piece := by
  have hjoin : [sep].intercalate (l.splitOn sep) = l := List.intercalate_splitOn sep
  rw [← hjoin] at ha
  generalize l.splitOn sep = pieces at ha ⊢
  induction pieces with
  | nil => cases ha
  | cons piece pieces ih =>
    by_cases hlast : pieces = []
    · rw [hlast, List.intercalate_singleton] at ha
      exact .inr ⟨piece, List.mem_cons_self .., ha⟩
    · rw [List.intercalate_cons_of_ne_nil hlast, List.mem_append, List.mem_append,
        List.mem_singleton] at ha
      -- in the first piece, the separator itself, or in what is behind it
      rcases ha with (ha | ha) | ha
      · exact .inr ⟨piece, List.mem_cons_self .., ha⟩
      · exact .inl ha
      · rcases ih ha with h | ⟨piece', hmem, h⟩
        · exact .inl h
        · exact .inr ⟨piece', List.mem_cons_of_mem _ hmem, h⟩

/-- Where an entry stands for the last time, a list is cut in one way. -/
theorem eq_of_append_cons_eq {a b x y : List α} {c : α} (hx : c ∉ x) (hy : c ∉ y)
    (h : a ++ c :: x = b ++ c :: y) : a = b ∧ x = y := by
  rcases List.append_eq_append_iff.mp h with ⟨rest, rfl, hrest⟩ | ⟨rest, rfl, hrest⟩
  · cases rest with
    | nil => exact ⟨(List.append_nil a).symm, (List.cons.inj hrest).2⟩
    | cons d rest => exact absurd ((List.cons.inj hrest).2 ▸ by simp) hx
  · cases rest with
    | nil => exact ⟨List.append_nil b, (List.cons.inj hrest).2.symm⟩
    | cons d rest => exact absurd ((List.cons.inj hrest).2 ▸ by simp) hy

/-- An entry of lists that are joined stands in one of them. -/
theorem exists_of_flatMap_eq_append_cons {f : α → List β} {l : List α}
    {before after : List β} {b : β} (h : l.flatMap f = before ++ b :: after) :
    ∃ l₁ a l₂ front back, l = l₁ ++ a :: l₂ ∧ f a = front ++ b :: back
      ∧ before = l₁.flatMap f ++ front ∧ after = back ++ l₂.flatMap f := by
  induction l generalizing before with
  | nil => simp at h
  | cons a l ih =>
    -- the entry is not the first, so it is found in the rest
    have hlater : ∀ rest, l.flatMap f = rest ++ b :: after → before = f a ++ rest →
        ∃ l₁ a' l₂ front back, a :: l = l₁ ++ a' :: l₂ ∧ f a' = front ++ b :: back
          ∧ before = l₁.flatMap f ++ front ∧ after = back ++ l₂.flatMap f := by
      intro rest hrest hbefore
      obtain ⟨l₁, a', l₂, front, back, rfl, ha', rfl, hafter⟩ := ih hrest
      exact ⟨a :: l₁, a', l₂, front, back, rfl, ha', by simp [hbefore], hafter⟩
    rw [List.flatMap_cons] at h
    rcases List.append_eq_append_iff.mp h with ⟨rest, hbefore, hrest⟩ | ⟨back, ha, hback⟩
    · exact hlater rest hrest hbefore
    · cases back with
      | nil => exact hlater [] hback.symm (by simpa using ha.symm)
      | cons d back =>
        obtain ⟨rfl, rfl⟩ := List.cons.inj hback
        exact ⟨[], a, l, before, back, rfl, ha, rfl, rfl⟩

/-- Filters that respect the relation leave related lists related. -/
theorem forall₂_filter {γ : Type} {R : α → γ → Prop} {f : α → Bool} {g : γ → Bool}
    (hR : ∀ a c, R a c → f a = g c) {l : List α} {r : List γ} (h : List.Forall₂ R l r) :
    List.Forall₂ R (l.filter f) (r.filter g) := by
  refine List.rel_filter (fun a c hac => ?_) h
  show f a = true ↔ g c = true
  rw [hR a c hac]

/-- What stands at a place on the left has its partner at the same place on the right. -/
theorem exists_getElem?_of_forall₂ {R : α → β → Prop} {l : List α} {r : List β}
    (h : List.Forall₂ R l r) {i : Nat} {a : α} (ha : l[i]? = some a) :
    ∃ b, r[i]? = some b ∧ R a b := by
  induction h generalizing i with
  | nil => cases ha
  | cons hR _ ih =>
    cases i with
    | zero =>
      cases ha
      exact ⟨_, rfl, hR⟩
    | succ i => exact ih ha

/-- The only entry with its key. -/
theorem filter_key_eq_singleton {κ : Type} [DecidableEq κ] {key : α → κ} {l : List α} {a : α}
    (h : (l.map key).Nodup) (ha : a ∈ l) : l.filter (fun b => key b = key a) = [a] := by
  obtain ⟨before, after, rfl⟩ := List.append_of_mem ha
  rw [List.map_append, List.map_cons, List.nodup_middle, List.nodup_cons, ← List.map_append] at h
  have hothers : (before ++ after).filter (fun b => key b = key a) = [] :=
    List.filter_eq_nil_iff.mpr fun b hb heq =>
      h.1 (of_decide_eq_true heq ▸ List.mem_map_of_mem hb)
  rw [List.filter_append, List.append_eq_nil_iff] at hothers
  rw [List.filter_append, hothers.1, List.filter_cons_of_pos (by simp), hothers.2,
    List.nil_append]

/-! ## Steps that may have no result -/

/-- A step for every entry of a list has a result if each has. -/
theorem mapM_eq_some {f : α → Option β} {l : List α} {r : List β} :
    l.mapM f = some r ↔ List.Forall₂ (fun a b => f a = some b) l r := by
  induction l generalizing r with
  | nil =>
    rw [List.forall₂_nil_left_iff, List.mapM_nil]
    exact Option.some_inj.trans eq_comm
  | cons a l ih =>
    rw [List.mapM_cons, List.forall₂_cons_left_iff]
    constructor
    · intro h
      obtain ⟨b, hb, h⟩ := Option.bind_eq_some_iff.mp h
      obtain ⟨bs, hbs, h⟩ := Option.bind_eq_some_iff.mp h
      cases h
      exact ⟨b, bs, hb, ih.mp hbs, rfl⟩
    · intro hx
      obtain ⟨b, bs, hb, hbs, rfl⟩ := hx
      rw [hb, ih.mpr hbs]
      rfl

/-- Reading two lists, one after the other. -/
theorem mapM_append_eq_some {f : α → Option β} {l₁ l₂ : List α} {r : List β} :
    (l₁ ++ l₂).mapM f = some r
      ↔ ∃ r₁ r₂, r = r₁ ++ r₂ ∧ l₁.mapM f = some r₁ ∧ l₂.mapM f = some r₂ := by
  simp only [List.mapM_append, Option.bind_eq_bind, Option.pure_def, Option.bind_eq_some_iff,
    Option.some.injEq]
  constructor
  · rintro ⟨r₁, h₁, r₂, h₂, rfl⟩
    exact ⟨r₁, r₂, rfl, h₁, h₂⟩
  · rintro ⟨r₁, r₂, rfl, h₁, h₂⟩
    exact ⟨r₁, h₁, r₂, h₂, rfl⟩

theorem mapM_cons_eq_some {f : α → Option β} {a : α} {l : List α} {r : List β} :
    (a :: l).mapM f = some r ↔ ∃ b bs, r = b :: bs ∧ f a = some b ∧ l.mapM f = some bs := by
  rw [mapM_eq_some, List.forall₂_cons_left_iff]
  simp only [← mapM_eq_some]
  tauto

/-- Two functions that agree on a list read the same. -/
theorem mapM_congr {f g : α → Option β} {l : List α} (h : ∀ a ∈ l, f a = g a) :
    l.mapM f = l.mapM g := by
  induction l with
  | nil => rfl
  | cons a l ih =>
    obtain ⟨ha, hl⟩ := List.forall_mem_cons.mp h
    rw [List.mapM_cons, List.mapM_cons, ha, ih hl]

theorem exists_mapM {f : α → Option β} {l : List α} (h : ∀ a ∈ l, ∃ b, f a = some b) :
    ∃ bs, l.mapM f = some bs := by
  induction l with
  | nil => exact ⟨[], rfl⟩
  | cons a l ih =>
    obtain ⟨b, hb⟩ := h a (List.mem_cons_self ..)
    obtain ⟨bs, hbs⟩ := ih fun a ha => h a (List.mem_cons_of_mem _ ha)
    exact ⟨b :: bs, mapM_eq_some.mpr (.cons hb (mapM_eq_some.mp hbs))⟩

/-- Steps whose results are changed have the changed results. -/
theorem mapM_map {γ : Type} {f : α → Option β} {g : β → γ} (l : List α) :
    (l.mapM fun a => (f a).map g) = (l.mapM f).map (List.map g) := by
  induction l with
  | nil => rfl
  | cons a l ih =>
    rw [List.mapM_cons, List.mapM_cons, ih]
    cases f a with
    | none => rfl
    | some b => cases l.mapM f <;> rfl

end TypedEntities
