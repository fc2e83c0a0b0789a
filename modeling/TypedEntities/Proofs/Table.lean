import Mathlib
import TypedEntities.Proofs.Listing
import TypedEntities.Table

/-!
# What tables hold

A table is what it finds: two tables that find the same are equal (`eq_of_get?_eq`). A table of a
list of entries finds the last one for a key (`get?_ofList`), so it does not depend on the order of
entries with different keys (`ofList_eq_of_perm`). `Related` compares tables with the same keys.
-/

namespace TypedEntities.Table

/-! ## Look-ups -/

variable {κ α : Type} [LT κ] [LE κ] [Std.IsLinearOrder κ] [Std.LawfulOrderLT κ]

omit [Std.IsLinearOrder κ] in
theorem nodup_keys (t : Table κ α) : t.keys.Nodup := by
  refine t.ascending.imp fun {a b} h hab => ?_
  rw [hab] at h
  exact Std.lt_irrefl h

omit [LT κ] [LE κ] [Std.IsLinearOrder κ] [Std.LawfulOrderLT κ] in
/-- Where no two entries have one key, looking for a key finds its entry. -/
theorem find?_map_snd_eq_some_iff [DecidableEq κ] {l : List (κ × α)} (h : (l.map Prod.fst).Nodup)
    {k : κ} {a : α} :
    (l.find? fun e => e.1 = k).map Prod.snd = some a ↔ (k, a) ∈ l := by
  rw [Option.map_eq_some_iff]
  constructor
  · intro hx
    obtain ⟨e, he, rfl⟩ := hx
    obtain rfl : e.1 = k := by simpa using List.find?_some he
    exact List.mem_of_find?_eq_some he
  · intro hmem
    have hsome : (l.find? fun e => e.1 = k).isSome :=
      List.find?_isSome.mpr ⟨(k, a), hmem, by simp⟩
    obtain ⟨e, he⟩ := Option.isSome_iff_exists.mp hsome
    have hk : e.1 = k := by simpa using List.find?_some he
    have heq := List.inj_on_of_nodup_map h (List.mem_of_find?_eq_some he) hmem hk
    exact ⟨e, he, by rw [heq]⟩

variable [DecidableEq κ]

omit [Std.IsLinearOrder κ] in
/-- A table finds exactly its entries. -/
theorem get?_eq_some_iff {t : Table κ α} {k : κ} {a : α} :
    t.get? k = some a ↔ (k, a) ∈ t.entries :=
  find?_map_snd_eq_some_iff t.nodup_keys

omit [Std.IsLinearOrder κ] in
/-- The entries for one key are what the table finds. -/
theorem filter_entries_eq (t : Table κ α) (k : κ) :
    t.entries.filter (fun e => e.1 = k) = ((t.get? k).map fun a => (k, a)).toList := by
  cases hget : t.get? k with
  | none =>
    refine List.filter_eq_nil_iff.mpr fun e he hk => ?_
    have hsome : t.get? e.1 = some e.2 := get?_eq_some_iff.mpr he
    rw [of_decide_eq_true hk, hget] at hsome
    cases hsome
  | some a => exact filter_key_eq_singleton t.nodup_keys (get?_eq_some_iff.mp hget)

omit [Std.IsLinearOrder κ] in
/-- The keys are what something can be looked up under. -/
theorem mem_keys_iff {t : Table κ α} {k : κ} : k ∈ t.keys ↔ ∃ a, t.get? k = some a := by
  unfold keys
  rw [List.mem_map]
  constructor
  · intro hx
    obtain ⟨e, he, rfl⟩ := hx
    exact ⟨e.2, get?_eq_some_iff.mpr he⟩
  · intro hx
    obtain ⟨a, ha⟩ := hx
    exact ⟨(k, a), get?_eq_some_iff.mp ha, rfl⟩

omit [Std.IsLinearOrder κ] in
theorem contains_iff {t : Table κ α} {k : κ} : t.contains k ↔ k ∈ t.keys := by
  unfold contains
  rw [mem_keys_iff, Option.isSome_iff_exists]

/-- Tables that find the same are the same. -/
theorem eq_of_get?_eq {s t : Table κ α} (h : ∀ k, s.get? k = t.get? k) : s = t := by
  have hmem : ∀ e, e ∈ s.entries ↔ e ∈ t.entries := fun e => by
    rw [← get?_eq_some_iff (t := s), ← get?_eq_some_iff (t := t), h]
  have hs : s.entries.Nodup := List.Nodup.of_map _ s.nodup_keys
  have ht : t.entries.Nodup := List.Nodup.of_map _ t.nodup_keys
  refine Table.ext (List.Perm.eq_of_pairwise ?_
    (List.pairwise_map.mp s.ascending) (List.pairwise_map.mp t.ascending)
    ((List.perm_ext_iff_of_nodup hs ht).mpr hmem))
  intro a b _ _ hab hba
  exact absurd (Std.lt_trans hab hba) Std.lt_irrefl

omit [DecidableEq κ] in
/-- The keys of a table stand in their only order. -/
theorem keys_eq_of_mem_iff {β : Type} {s : Table κ α} {t : Table κ β}
    (h : ∀ k, k ∈ s.keys ↔ k ∈ t.keys) : s.keys = t.keys := by
  have hperm : s.keys.Perm t.keys :=
    (List.perm_ext_iff_of_nodup s.nodup_keys t.nodup_keys).mpr h
  refine List.Perm.eq_of_pairwise ?_ s.ascending t.ascending hperm
  intro a b _ _ hab hba
  exact absurd (Std.lt_trans hab hba) Std.lt_irrefl

variable [DecidableLT κ]

/-- What is looked up after an insertion: the new value under its key, the old ones under all
others. -/
theorem get?_insert (t : Table κ α) (k x : κ) (a : α) :
    (t.insert k a).get? x = if x = k then some a else t.get? x := by
  unfold insert
  split
  next h => rw [h, get?_upsert_self]
  next h => rw [get?_upsert_of_ne _ _ h]

/-- Of several entries for a key the last one counts. -/
theorem get?_ofList (l : List (κ × α)) (k : κ) :
    (ofList l).get? k = (l.reverse.find? fun e => e.1 = k).map Prod.snd := by
  unfold ofList
  -- from the end of the list, since the entry that is put in last is the one that counts
  induction l using List.reverseRecOn with
  | nil => rfl
  | append_singleton l e ih =>
    rw [List.foldl_append, List.foldl_cons, List.foldl_nil, get?_insert, ih, List.reverse_append]
    by_cases h : k = e.1
    · simp [h]
    · simp [h, Ne.symm h]

/-- A table of a list holds nothing but entries of the list. -/
theorem mem_of_mem_ofList {l : List (κ × α)} {e : κ × α} (h : e ∈ (ofList l).entries) : e ∈ l := by
  have hget : (ofList l).get? e.1 = some e.2 := get?_eq_some_iff.mpr h
  rw [get?_ofList, Option.map_eq_some_iff] at hget
  obtain ⟨e', hfind, hsnd⟩ := hget
  have hfst : e'.1 = e.1 := by simpa using List.find?_some hfind
  have hmem := List.mem_reverse.mp (List.mem_of_find?_eq_some hfind)
  rwa [← Prod.ext hfst hsnd]

/-- The last entry for a key is what the table of a list finds. -/
theorem get?_ofList_of_split {before after : List (κ × α)} {k : κ} {a : α}
    (h : ∀ e ∈ after, e.1 ≠ k) : (ofList (before ++ (k, a) :: after)).get? k = some a := by
  have hafter : after.reverse.find? (fun e => e.1 = k) = none := by
    rw [List.find?_eq_none]
    intro e he
    simpa using h e (List.mem_reverse.mp he)
  rw [get?_ofList, List.reverse_append, List.reverse_cons, List.append_assoc, List.find?_append,
    hafter]
  simp

/-- Where no two entries have one key, a table finds exactly the entries of its list. -/
theorem get?_ofList_eq_some_iff {l : List (κ × α)} (h : (l.map Prod.fst).Nodup) {k : κ} {a : α} :
    (ofList l).get? k = some a ↔ (k, a) ∈ l := by
  rw [get?_ofList, find?_map_snd_eq_some_iff, List.mem_reverse]
  rwa [List.map_reverse, List.nodup_reverse]

/-- The order of entries with different keys has no meaning. -/
theorem ofList_eq_of_perm {l₁ l₂ : List (κ × α)} (h : l₁.Perm l₂) (hd : (l₁.map Prod.fst).Nodup) :
    ofList l₁ = ofList l₂ := by
  refine eq_of_get?_eq fun k => Option.ext fun a => ?_
  rw [get?_ofList_eq_some_iff hd, get?_ofList_eq_some_iff ((h.map _).nodup_iff.mp hd), h.mem_iff]

theorem mem_keys_ofList {l : List (κ × α)} {k : κ} : k ∈ (ofList l).keys ↔ k ∈ l.map Prod.fst := by
  constructor
  · intro hk
    obtain ⟨e, he, rfl⟩ := List.mem_map.mp hk
    exact List.mem_map_of_mem (mem_of_mem_ofList he)
  · intro hk
    obtain ⟨e, he, rfl⟩ := List.mem_map.mp hk
    have hsome : (l.reverse.find? fun e' => e'.1 = e.1).isSome :=
      List.find?_isSome.mpr ⟨e, List.mem_reverse.mpr he, by simp⟩
    obtain ⟨e', he'⟩ := Option.isSome_iff_exists.mp hsome
    exact mem_keys_iff.mpr ⟨e'.2, by rw [get?_ofList, he']; rfl⟩

omit [DecidableEq κ] in
/-- A key that is new gets an entry of its own. -/
theorem upsertEntries_perm {k : κ} (f : Option α → α) {l : List (κ × α)}
    (h : k ∉ l.map Prod.fst) : (upsertEntries k f l).Perm ((k, f none) :: l) := by
  induction l with
  | nil => exact .refl _
  | cons e rest ih =>
    obtain ⟨k', a⟩ := e
    obtain ⟨hne, hrest⟩ := not_or.mp (mt List.mem_cons.mpr h)
    unfold upsertEntries
    split
    next => exact .refl _
    next hn =>
      split
      next => exact ((ih hrest).cons (k', a)).trans (.swap ..)
      next hn' =>
        -- only equal keys are left, but the new key was not there
        rcases Std.lt_trichotomy k k' with hlt | heq | hgt
        · exact absurd hlt hn
        · exact absurd heq hne
        · exact absurd hgt hn'

/-! ## Tables with the same keys -/

section Related

variable {β : Type} {P : α → β → Prop}

/-- The same keys with related values. -/
def Related (P : α → β → Prop) (s : Table κ α) (t : Table κ β) : Prop :=
  List.Forall₂ (fun x y => x.1 = y.1 ∧ P x.2 y.2) s.entries t.entries

omit [LE κ] [Std.IsLinearOrder κ] [Std.LawfulOrderLT κ] [DecidableEq κ] [DecidableLT κ] in
theorem Related.keys_eq {s : Table κ α} {t : Table κ β} (h : s.Related P t) : s.keys = t.keys :=
  map_eq_of_forall₂ (fun _ _ hxy => hxy.1) h

omit [LE κ] [Std.IsLinearOrder κ] [Std.LawfulOrderLT κ] [DecidableEq κ] [DecidableLT κ] in
theorem Related.values {s : Table κ α} {t : Table κ β} (h : s.Related P t) :
    List.Forall₂ P s.values t.values := by
  unfold Table.values
  rw [List.forall₂_map_left_iff, List.forall₂_map_right_iff]
  exact h.imp fun _ _ hxy => hxy.2

omit [DecidableEq κ] in
/-- Tables stay related when related values are inserted under one key. -/
theorem Related.insert {s : Table κ α} {t : Table κ β} (h : s.Related P t) (k : κ) {a : α} {b : β}
    (hab : P a b) : (s.insert k a).Related P (t.insert k b) := by
  show List.Forall₂ _ (upsertEntries k (fun _ => a) s.entries)
    (upsertEntries k (fun _ => b) t.entries)
  unfold Related at h
  generalize s.entries = l at h
  generalize t.entries = r at h
  -- the same keys stand on both sides, so both insertions stop at the same entry
  induction h with
  | nil => exact .cons ⟨rfl, hab⟩ .nil
  | @cons x y _ _ hxy hrest ih =>
    obtain ⟨key, value⟩ := x
    obtain ⟨key', value'⟩ := y
    obtain ⟨hkey, hvalue⟩ := hxy
    obtain rfl : key = key' := hkey
    unfold upsertEntries
    split
    next => exact .cons ⟨rfl, hab⟩ (.cons ⟨rfl, hvalue⟩ hrest)
    next =>
      split
      next => exact .cons ⟨rfl, hvalue⟩ ih
      next => exact .cons ⟨rfl, hab⟩ hrest

omit [DecidableEq κ] in
/-- Lists with the same keys and related values in the same order make related tables. -/
theorem related_ofList {l : List (κ × α)} {r : List (κ × β)}
    (h : List.Forall₂ (fun x y => x.1 = y.1 ∧ P x.2 y.2) l r) :
    (ofList l).Related P (ofList r) := by
  have hfold : ∀ {s : Table κ α} {t : Table κ β}, s.Related P t →
      (l.foldl (fun t e => t.insert e.1 e.2) s).Related P
        (r.foldl (fun t e => t.insert e.1 e.2) t) := by
    induction h with
    | nil => exact fun hst => hst
    | cons hxy _ ih =>
      intro s t hst
      rw [List.foldl_cons, List.foldl_cons, hxy.1]
      exact ih (hst.insert _ hxy.2)
  exact hfold .nil

end Related

end TypedEntities.Table
