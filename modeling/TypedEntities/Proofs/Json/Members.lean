import Mathlib
import TypedEntities.Json.Decode
import TypedEntities.Proofs.Listing

/-!
# Members and levels

What a decoder finds among the members of an object depends neither on their order
(`Decoder.slots_reorder`) nor on members with keys that it does not know (`Decoder.slots_insert`),
and another tree in the place of a field changes the slot of this field only
(`Decoder.slots_member`, `Decoder.slots_item`). A tree that is read for its value has one if it is
readable and not too deep (`isSome_value?_iff`).
-/

namespace TypedEntities.Json

/-! ## Values -/

mutual

/-- How many arrays and objects stand inside each other in a tree. -/
def Tree.depth : Tree → Nat
  | .array items => depthItems items + 1
  | .object members => depthMembers members + 1
  | _ => 0

/-- The depth of the deepest item. -/
def depthItems : List Tree → Nat
  | [] => 0
  | t :: rest => max t.depth (depthItems rest)

/-- The depth of the deepest value of a member. -/
def depthMembers : List (Option String × Tree) → Nat
  | [] => 0
  | (_, t) :: rest => max t.depth (depthMembers rest)

end

mutual

/-- All strings of a tree, its keys included, are texts and all its numbers are in the range of
numbers. -/
def Tree.Readable : Tree → Prop
  | .null | .bool _ => True
  | .number n => n.value?.isSome
  | .text s => s.isSome
  | .array items => ReadableItems items
  | .object members => ReadableMembers members

/-- Each item is readable. -/
def ReadableItems : List Tree → Prop
  | [] => True
  | t :: rest => t.Readable ∧ ReadableItems rest

/-- The key and the value of each member are readable. -/
def ReadableMembers : List (Option String × Tree) → Prop
  | [] => True
  | (key, t) :: rest => key.isSome ∧ t.Readable ∧ ReadableMembers rest

end

theorem isSome_valueItems?_cons (levels : Nat) (t : Tree) (items : List Tree) :
    (valueItems? levels (t :: items)).isSome
      ↔ (t.value? levels).isSome ∧ (valueItems? levels items).isSome := by
  rw [valueItems?]
  cases t.value? levels <;> cases valueItems? levels items <;> simp

theorem isSome_valueMembers?_cons (levels : Nat) (m : Option String × Tree)
    (members : List (Option String × Tree)) :
    (valueMembers? levels (m :: members)).isSome
      ↔ m.1.isSome ∧ (m.2.value? levels).isSome ∧ (valueMembers? levels members).isSome := by
  obtain ⟨key, t⟩ := m
  rw [valueMembers?]
  cases key <;> cases t.value? levels <;> cases valueMembers? levels members <;> simp

mutual

/-- **A tree has a value** if and only if it is readable and not too deep. -/
theorem isSome_value?_iff (levels : Nat) (t : Tree) :
    (t.value? levels).isSome ↔ t.depth ≤ levels ∧ t.Readable := by
  cases t with
  | null => simp [Tree.value?, Tree.depth, Tree.Readable]
  | bool b => simp [Tree.value?, Tree.depth, Tree.Readable]
  | number n => simp [Tree.value?, Tree.depth, Tree.Readable]
  | text s => simp [Tree.value?, Tree.depth, Tree.Readable]
  | array items =>
    rw [Tree.value?, Tree.depth, Tree.Readable]
    cases levels with
    | zero => simp
    | succ levels =>
      simp only [Nat.add_one_ne_zero, if_false, Option.isSome_map, Nat.add_sub_cancel,
        Nat.add_le_add_iff_right]
      exact isSome_valueItems?_iff levels items
  | object members =>
    rw [Tree.value?, Tree.depth, Tree.Readable]
    cases levels with
    | zero => simp
    | succ levels =>
      simp only [Nat.add_one_ne_zero, if_false, Option.isSome_map, Nat.add_sub_cancel,
        Nat.add_le_add_iff_right]
      exact isSome_valueMembers?_iff levels members

theorem isSome_valueItems?_iff (levels : Nat) (items : List Tree) :
    (valueItems? levels items).isSome ↔ depthItems items ≤ levels ∧ ReadableItems items := by
  cases items with
  | nil => simp [valueItems?, depthItems, ReadableItems]
  | cons t items =>
    rw [isSome_valueItems?_cons, isSome_value?_iff levels t, isSome_valueItems?_iff levels items,
      depthItems, ReadableItems, Nat.max_le]
    tauto

theorem isSome_valueMembers?_iff (levels : Nat) (members : List (Option String × Tree)) :
    (valueMembers? levels members).isSome
      ↔ depthMembers members ≤ levels ∧ ReadableMembers members := by
  cases members with
  | nil => simp [valueMembers?, depthMembers, ReadableMembers]
  | cons m members =>
    obtain ⟨key, t⟩ := m
    rw [isSome_valueMembers?_cons, isSome_value?_iff levels t,
      isSome_valueMembers?_iff levels members, depthMembers, ReadableMembers, Nat.max_le]
    tauto

end

instance (t : Tree) : Decidable t.Readable :=
  decidable_of_iff (t.value? t.depth).isSome (by rw [isSome_value?_iff, and_iff_right le_rfl])

/-- An object has a value if and only if all its keys are texts and its members have values. -/
theorem isSome_value?_object_iff (levels : Nat) (members : List (Option String × Tree)) :
    ((Tree.object members).value? levels).isSome
      ↔ levels ≠ 0 ∧ ∀ m ∈ members, m.1.isSome ∧ (m.2.value? (levels - 1)).isSome := by
  have hmembers : (valueMembers? (levels - 1) members).isSome
      ↔ ∀ m ∈ members, m.1.isSome ∧ (m.2.value? (levels - 1)).isSome := by
    induction members with
    | nil => simp [valueMembers?]
    | cons m members ih => rw [isSome_valueMembers?_cons, ih, List.forall_mem_cons, and_assoc]
  rw [Tree.value?]
  split
  next hzero => simp [hzero]
  next hlevels => rw [Option.isSome_map, hmembers, and_iff_right hlevels]

namespace Decoder

variable {α : Type} {fields : List String} {levels : Nat}

/-! ## The slots of an object -/

/-- The members whose keys are texts. -/
def named (members : List (Option String × Tree)) : List (String × Tree) :=
  members.filterMap fun m => m.1.map (·, m.2)

/-- The slots of an object whose keys are all texts; otherwise there are none. -/
theorem slotsOfMembers_eq (members : List (Option String × Tree)) :
    slotsOfMembers fields members
      = if ∀ m ∈ members, m.1.isSome then fields.mapM (slot? (named members)) else none := by
  have hnames : (members.mapM fun m => m.1.map (·, m.2))
      = if ∀ m ∈ members, m.1.isSome then some (named members) else none := by
    induction members with
    | nil => rfl
    | cons m members ih =>
      obtain ⟨_ | key, t⟩ := m
      · rfl
      · rw [List.mapM_cons, ih]
        simp only [List.forall_mem_cons, Option.isSome_some, true_and, named,
          List.filterMap_cons, Option.map_some]
        split <;> rfl
  show ((members.mapM fun m => m.1.map (·, m.2)) >>= fun members => fields.mapM (slot? members)) = _
  rw [hnames]
  split <;> rfl

/-- The slot of a key does not depend on the order of members. -/
theorem slot?_eq_of_perm {members members' : List (String × Tree)} (h : members.Perm members')
    (key : String) : slot? members key = slot? members' key := by
  have hfilter := h.filter fun m => m.1 = key
  unfold slot?
  split
  next hnone =>
    rw [hnone, List.nil_perm] at hfilter
    rw [hfilter]
  next m hone =>
    rw [hone, List.singleton_perm] at hfilter
    rw [← hfilter]
  next hmany hmany' =>
    -- neither none nor one, in whatever order
    split
    next hnone =>
      rw [hnone, List.perm_nil] at hfilter
      exact absurd hfilter hmany
    next m hone =>
      rw [hone, List.perm_singleton] at hfilter
      exact absurd hfilter (hmany' m)
    next => rfl

/-- A slot is that of the only member with the key. -/
theorem slot?_append_of_ne {before after : List (String × Tree)} {key key' : String}
    (h : key' ≠ key) (t : Tree) : slot? (before ++ (key', t) :: after) key = slot? (before ++ after) key := by
  unfold slot?
  rw [List.filter_append, List.filter_cons_of_neg (by simpa using h), ← List.filter_append]

/-- A member with a key that is looked for fills the slot, if it is the only one. -/
theorem slot?_append_self {before after : List (String × Tree)} {key : String} {t : Tree}
    {slot : Option Tree} (h : slot? (before ++ (key, t) :: after) key = some slot) :
    slot = some t ∧ ∀ t', slot? (before ++ (key, t') :: after) key = some (some t') := by
  unfold slot? at h ⊢
  simp only [List.filter_append, List.filter_cons, decide_true, if_true] at h ⊢
  cases hbefore : before.filter fun m => m.1 = key with
  | cons m rest =>
    rw [hbefore] at h
    cases rest <;> cases h
  | nil =>
    cases hafter : after.filter fun m => m.1 = key with
    | cons m rest =>
      rw [hbefore, hafter] at h
      cases h
    | nil =>
      rw [hbefore, hafter] at h
      cases h
      exact ⟨rfl, fun _ => rfl⟩

/-- A member with a key that is not looked for is passed over. -/
theorem mapM_slot?_of_notMem {before after : List (String × Tree)} {key : String}
    (hkey : key ∉ fields) (t : Tree) :
    fields.mapM (slot? (before ++ (key, t) :: after)) = fields.mapM (slot? (before ++ after)) :=
  mapM_congr fun field hfield =>
    slot?_append_of_ne (fun h : key = field => hkey (h ▸ hfield)) t

/-- The member with the key of a field fills its slot and no other. -/
theorem mapM_slot?_member {before after : List (String × Tree)} {key : String} {t : Tree}
    {parts : List (Option Tree)} {i : Nat} (hnodup : fields.Nodup) (hkey : fields[i]? = some key)
    (h : fields.mapM (slot? (before ++ (key, t) :: after)) = some parts) :
    parts[i]? = some (some t) ∧ ∀ t', fields.mapM (slot? (before ++ (key, t') :: after))
      = some (parts.set i (some t')) := by
  induction fields generalizing i parts with
  | nil => cases hkey
  | cons field fields ih =>
    obtain ⟨hfield, hnodup⟩ := List.nodup_cons.mp hnodup
    obtain ⟨part, parts, rfl, hpart, hparts⟩ := mapM_cons_eq_some.mp h
    cases i with
    | zero =>
      cases hkey
      obtain ⟨rfl, hset⟩ := slot?_append_self hpart
      rw [mapM_slot?_of_notMem hfield] at hparts
      refine ⟨rfl, fun t' => mapM_cons_eq_some.mpr ⟨some t', parts, rfl, hset t', ?_⟩⟩
      rw [mapM_slot?_of_notMem hfield, hparts]
    | succ i =>
      obtain ⟨hslot, hset⟩ := ih hnodup hkey hparts
      -- the fields are listed once each, so the other slots stay as they are
      have hne : key ≠ field := fun h => hfield (h ▸ List.mem_of_getElem? hkey)
      rw [slot?_append_of_ne hne] at hpart
      refine ⟨hslot, fun t' => mapM_cons_eq_some.mpr ⟨part, _, rfl, ?_, hset t'⟩⟩
      rw [slot?_append_of_ne hne, hpart]

theorem named_append (before after : List (Option String × Tree)) (key : String) (t : Tree) :
    named (before ++ (some key, t) :: after) = named before ++ (key, t) :: named after := by
  simp only [named, List.filterMap_append, List.filterMap_cons, Option.map_some]

/-! ## The slots of a record -/

/-- The slots of an object do not depend on the order of its members. -/
theorem slotsOfMembers_reorder {members members' : List (Option String × Tree)}
    (h : members.Perm members') :
    slotsOfMembers fields members = slotsOfMembers fields members' := by
  have hslot : slot? (named members) = slot? (named members') :=
    funext (slot?_eq_of_perm (h.filterMap _))
  rw [slotsOfMembers_eq, slotsOfMembers_eq, hslot]
  simp only [h.mem_iff]

/-- A member that is no field does not change the slots of an object. -/
theorem slotsOfMembers_insert {before after : List (Option String × Tree)} {key : String}
    (hkey : key ∉ fields) (t : Tree) :
    slotsOfMembers fields (before ++ (some key, t) :: after)
      = slotsOfMembers fields (before ++ after) := by
  have hnamed : named before ++ named after = named (before ++ after) := List.filterMap_append.symm
  rw [slotsOfMembers_eq, slotsOfMembers_eq, named_append, mapM_slot?_of_notMem hkey, hnamed]
  simp only [List.forall_mem_append, List.forall_mem_cons, Option.isSome_some, true_and]

/-- Another tree for a field changes its slot only. -/
theorem slotsOfMembers_member {before after : List (Option String × Tree)} {key : String} {t : Tree}
    {parts : List (Option Tree)} {i : Nat} (hnodup : fields.Nodup) (hkey : fields[i]? = some key)
    (h : slotsOfMembers fields (before ++ (some key, t) :: after) = some parts) :
    parts[i]? = some (some t) ∧ ∀ t', slotsOfMembers fields (before ++ (some key, t') :: after)
      = some (parts.set i (some t')) := by
  simp only [slotsOfMembers_eq, Option.ite_none_right_eq_some, named_append,
    List.forall_mem_append, List.forall_mem_cons] at h ⊢
  obtain ⟨hslot, hset⟩ := mapM_slot?_member hnodup hkey h.2
  exact ⟨hslot, fun t' => ⟨h.1, hset t'⟩⟩

/-- The slots of a record do not depend on the order of its members. -/
theorem slots_reorder {members members' : List (Option String × Tree)}
    (h : members.Perm members') :
    slots fields levels (.object members) = slots fields levels (.object members') := by
  cases levels with
  | zero => rfl
  | succ levels => exact slotsOfMembers_reorder h

/-- A member that is no field of a record does not change its slots. -/
theorem slots_insert {before after : List (Option String × Tree)} {key : String}
    (hkey : key ∉ fields) (t : Tree) :
    slots fields levels (.object (before ++ (some key, t) :: after))
      = slots fields levels (.object (before ++ after)) := by
  cases levels with
  | zero => rfl
  | succ levels => exact slotsOfMembers_insert hkey t

/-- Another tree for a field of a record given as members changes the slot of this field only. -/
theorem slots_member {before after : List (Option String × Tree)} {key : String} {t : Tree}
    {parts : List (Option Tree)} {i : Nat} (hnodup : fields.Nodup) (hkey : fields[i]? = some key)
    (h : slots fields levels (.object (before ++ (some key, t) :: after)) = some parts) :
    parts[i]? = some (some t) ∧ ∀ t', slots fields levels
      (.object (before ++ (some key, t') :: after)) = some (parts.set i (some t')) := by
  cases levels with
  | zero => cases h
  | succ levels => exact slotsOfMembers_member hnodup hkey h

/-- Another tree for a field of a record given as a list changes the slot of this field only. -/
theorem slots_item {before after : List Tree} {t : Tree} {parts : List (Option Tree)}
    (h : slots fields levels (.array (before ++ t :: after)) = some parts) :
    parts[before.length]? = some (some t) ∧ ∀ t', slots fields levels
      (.array (before ++ t' :: after)) = some (parts.set before.length (some t')) := by
  cases levels with
  | zero => cases h
  | succ levels =>
    simp only [slots, slotsOfItems, List.length_append, List.length_cons,
      Option.ite_none_left_eq_some, Option.some.injEq] at h ⊢
    obtain ⟨hfits, rfl⟩ := h
    simp [hfits]

/-! ## Lists and null -/

theorem list_eq_some {d : Decoder α} {items : List Tree} {xs : List α} :
    list d levels (.array items) = some xs
      ↔ levels ≠ 0 ∧ items.mapM (d (levels - 1)) = some xs := by
  rw [list, Option.ite_none_left_eq_some]

/-- Another tree for an item of a list changes this item only. -/
theorem list_item {d : Decoder α} {before after : List Tree} {t : Tree} {xs : List α}
    (h : list d levels (.array (before ++ t :: after)) = some xs) :
    ∃ us x ws, xs = us ++ x :: ws ∧ us.length = before.length ∧ d (levels - 1) t = some x
      ∧ ∀ t' x', d (levels - 1) t' = some x' →
        list d levels (.array (before ++ t' :: after)) = some (us ++ x' :: ws) := by
  obtain ⟨hlevels, hitems⟩ := list_eq_some.mp h
  obtain ⟨us, rest, rfl, hus, hrest⟩ := mapM_append_eq_some.mp hitems
  obtain ⟨x, ws, rfl, hx, hws⟩ := mapM_cons_eq_some.mp hrest
  refine ⟨us, x, ws, rfl, (mapM_eq_some.mp hus).length_eq.symm, hx, fun t' x' hx' => ?_⟩
  have hrest' := mapM_cons_eq_some.mpr ⟨x', ws, rfl, hx', hws⟩
  exact list_eq_some.mpr ⟨hlevels, mapM_append_eq_some.mpr ⟨us, _, rfl, hus, hrest'⟩⟩

/-- One more item stands where it is inserted. -/
theorem list_insert {d : Decoder α} {before after : List Tree} {xs : List α}
    (h : list d levels (.array (before ++ after)) = some xs) :
    ∃ us ws, xs = us ++ ws ∧ us.length = before.length
      ∧ ∀ t x, d (levels - 1) t = some x →
        list d levels (.array (before ++ t :: after)) = some (us ++ x :: ws) := by
  obtain ⟨hlevels, hitems⟩ := list_eq_some.mp h
  obtain ⟨us, ws, rfl, hus, hws⟩ := mapM_append_eq_some.mp hitems
  refine ⟨us, ws, rfl, (mapM_eq_some.mp hus).length_eq.symm, fun t x hx => ?_⟩
  have hrest := mapM_cons_eq_some.mpr ⟨x, ws, rfl, hx, hws⟩
  exact list_eq_some.mpr ⟨hlevels, mapM_append_eq_some.mpr ⟨us, _, rfl, hus, hrest⟩⟩

/-- A value that is no null is read as it is. -/
theorem nullable_eq_some {d : Decoder α} {t : Tree} {v : Option α} (h : t ≠ .null) :
    nullable d levels t = some v ↔ ∃ x, v = some x ∧ d levels t = some x := by
  unfold nullable
  split
  next => exact absurd rfl h
  next =>
    rw [Option.map_eq_some_iff]
    constructor
    · rintro ⟨x, hx, rfl⟩
      exact ⟨x, rfl, hx⟩
    · rintro ⟨x, rfl, hx⟩
      exact ⟨x, hx, rfl⟩

end Decoder

end TypedEntities.Json
