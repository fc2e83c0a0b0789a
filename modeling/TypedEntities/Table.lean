/-!
# Tables

A finite map as its entries in strictly ascending order of their keys. The order of the entries is
part of the type, so two tables with the same content are equal and every listing of a table is
sorted. What a look-up finds after an update is said by `get?_upsert_self` and `get?_upsert_of_ne`.
-/

namespace TypedEntities

/-- A finite map from `κ` to `α`. -/
structure Table (κ α : Type) [LT κ] where
  entries : List (κ × α)
  ascending : (entries.map Prod.fst).Pairwise (· < ·)

namespace Table

variable {κ α : Type} [LT κ]

/-- The table without entries. -/
def empty : Table κ α := ⟨[], List.Pairwise.nil⟩

instance : Inhabited (Table κ α) := ⟨empty⟩

@[ext] theorem ext {s t : Table κ α} (h : s.entries = t.entries) : s = t := by
  cases s; cases t; cases h; rfl

/-- The keys, in ascending order. -/
def keys (t : Table κ α) : List κ := t.entries.map Prod.fst

/-- The values, in the order of their keys. -/
def values (t : Table κ α) : List α := t.entries.map Prod.snd

/-- The number of entries. -/
def size (t : Table κ α) : Nat := t.entries.length

def isEmpty (t : Table κ α) : Bool := t.entries.isEmpty

/-- The value of a key. -/
def get? [DecidableEq κ] (t : Table κ α) (k : κ) : Option α :=
  (t.entries.find? fun e => e.1 = k).map Prod.snd

/-- Whether a key has a value. -/
def contains [DecidableEq κ] (t : Table κ α) (k : κ) : Bool := (t.get? k).isSome

/-- The table without a key. -/
def erase [DecidableEq κ] (t : Table κ α) (k : κ) : Table κ α :=
  ⟨t.entries.filter fun e => e.1 ≠ k, t.ascending.sublist (List.filter_sublist.map _)⟩

/-- A key that was erased has no value. -/
theorem get?_erase_self [DecidableEq κ] (t : Table κ α) (k : κ) : (t.erase k).get? k = none := by
  have : (t.erase k).entries.find? (fun e => e.1 = k) = none := by
    simp [erase, List.find?_eq_none]
  simp [get?, this]

/-- Erasing a key leaves the other keys alone. -/
theorem get?_erase_of_ne [DecidableEq κ] (t : Table κ α) {k x : κ} (h : x ≠ k) :
    (t.erase k).get? x = t.get? x := by
  obtain ⟨l, hl⟩ := t
  simp only [erase, get?]
  clear hl
  induction l with
  | nil => rfl
  | cons e rest ih => by_cases hk : e.1 = k <;> by_cases hx : e.1 = x <;> simp_all

variable [DecidableLT κ]

/-- Changes the value of a key that is there and puts one in its place in the order if it is not. A
key that is there stays as it was written first. -/
def upsertEntries (k : κ) (f : Option α → α) : List (κ × α) → List (κ × α)
  | [] => [(k, f none)]
  | (k', a) :: rest =>
    if k < k' then (k, f none) :: (k', a) :: rest
    else if k' < k then (k', a) :: upsertEntries k f rest
    else (k', f (some a)) :: rest

theorem mem_keys_upsertEntries {k x : κ} {f : Option α → α} {l : List (κ × α)}
    (h : x ∈ (upsertEntries k f l).map Prod.fst) : x = k ∨ x ∈ l.map Prod.fst := by
  induction l with
  | nil => simpa [upsertEntries] using h
  | cons e rest ih =>
    obtain ⟨k', a⟩ := e
    simp only [upsertEntries] at h
    split at h
    · simpa using h
    · split at h
      · simp only [List.map_cons, List.mem_cons] at h ⊢
        rcases h with h | h
        · exact .inr (.inl h)
        · rcases ih h with h | h
          · exact .inl h
          · exact .inr (.inr h)
      · exact .inr (by simpa using h)

variable [LE κ] [Std.IsLinearOrder κ] [Std.LawfulOrderLT κ]

theorem ascending_upsertEntries (k : κ) (f : Option α → α) {l : List (κ × α)}
    (h : (l.map Prod.fst).Pairwise (· < ·)) :
    ((upsertEntries k f l).map Prod.fst).Pairwise (· < ·) := by
  induction l with
  | nil => simp [upsertEntries]
  | cons e rest ih =>
    obtain ⟨k', a⟩ := e
    simp only [List.map_cons, List.pairwise_cons] at h
    simp only [upsertEntries]
    split
    · next hk =>
      simp only [List.map_cons, List.pairwise_cons, List.mem_cons]
      refine ⟨?_, h.1, h.2⟩
      rintro x (rfl | hx)
      · exact hk
      · exact Std.lt_trans hk (h.1 x hx)
    · split
      · next hk =>
        simp only [List.map_cons, List.pairwise_cons]
        refine ⟨fun x hx => ?_, ih h.2⟩
        -- what is put into the rest has the new key or one that was there
        rcases mem_keys_upsertEntries hx with rfl | hx
        · exact hk
        · exact h.1 x hx
      · simpa using h

/-- Changes the value of a key, or gives it one. -/
def upsert (t : Table κ α) (k : κ) (f : Option α → α) : Table κ α :=
  ⟨upsertEntries k f t.entries, ascending_upsertEntries k f t.ascending⟩

/-- Sets the value of a key. -/
def insert (t : Table κ α) (k : κ) (a : α) : Table κ α := t.upsert k fun _ => a

/-- The table of the given entries; of several for one key the last. -/
def ofList (l : List (κ × α)) : Table κ α := l.foldl (fun t e => t.insert e.1 e.2) empty

variable [DecidableEq κ]

omit [DecidableLT κ] [Std.IsLinearOrder κ] in
/-- A key below all keys of the entries is not among them. -/
theorem find?_eq_none_of_lt {k : κ} {l : List (κ × α)} (h : ∀ x ∈ l.map Prod.fst, k < x) :
    l.find? (fun e => e.1 = k) = none := by
  rw [List.find?_eq_none]
  intro e he hk
  have := h e.1 (List.mem_map_of_mem he)
  simp only [decide_eq_true_eq] at hk
  exact Std.lt_irrefl (hk ▸ this)

/-- After an update a key has the value that the update makes of the former one. -/
theorem get?_upsert_self (t : Table κ α) (k : κ) (f : Option α → α) :
    (t.upsert k f).get? k = some (f (t.get? k)) := by
  obtain ⟨l, hl⟩ := t
  simp only [upsert, get?]
  induction l with
  | nil => simp [upsertEntries]
  | cons e rest ih =>
    obtain ⟨k', a⟩ := e
    simp only [List.map_cons, List.pairwise_cons] at hl
    simp only [upsertEntries]
    split
    · next hk =>
      -- keys ascend, so a key before the first is nowhere
      have : ((k', a) :: rest).find? (fun e => e.1 = k) = none :=
        find?_eq_none_of_lt fun x hx => by
          simp only [List.map_cons, List.mem_cons] at hx
          rcases hx with rfl | hx
          · exact hk
          · exact Std.lt_trans hk (hl.1 x hx)
      simp [this]
    · next hn =>
      split
      · next hk =>
        have hne : k' ≠ k := fun h => Std.lt_irrefl (h ▸ hk)
        simpa [List.find?_cons, hne] using ih hl.2
      · next hn' =>
        have : k' = k := by
          rcases Std.lt_trichotomy k k' with h | h | h
          · exact absurd h hn
          · exact h.symm
          · exact absurd h hn'
        simp [this]

/-- An update leaves the other keys alone. -/
theorem get?_upsert_of_ne (t : Table κ α) {k x : κ} (f : Option α → α) (h : x ≠ k) :
    (t.upsert k f).get? x = t.get? x := by
  obtain ⟨l, hl⟩ := t
  simp only [upsert, get?]
  clear hl
  induction l with
  | nil => simp [upsertEntries, h.symm]
  | cons e rest ih =>
    obtain ⟨k', a⟩ := e
    simp only [upsertEntries]
    split
    · simp [List.find?_cons, h.symm]
    · next hn =>
      split
      · simp only [List.find?_cons]
        split
        · rfl
        · exact ih
      · next hn' =>
        have : k' = k := by
          rcases Std.lt_trichotomy k k' with h | h | h
          · exact absurd h hn
          · exact h.symm
          · exact absurd h hn'
        simp [this, h.symm]

end Table

end TypedEntities
