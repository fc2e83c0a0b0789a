import TypedEntities.Json.Decode
import TypedEntities.Proofs.Json.Parser
import TypedEntities.Proofs.Listing

/-!
# What a decoder makes of what is written

`Decoder.Reads d levels v x` says that the value `v` is written without doubles and that `d` reads
its tree as `x`; by `Reads.parse?_bind` it then reads the text of `v` as `x`. There is one rule for
each part of a decoder. An object is treated as the table of its possible members (`ofEntries`): its
slots are the trees of the members that it has, whichever are left out.
-/

namespace TypedEntities.Json

/-! ## The trees of lists -/

/-- The trees of items are those of each item. -/
theorem itemTrees_eq_map (items : List Json) : itemTrees items = items.map toTree := by
  induction items with
  | nil => rw [itemTrees, List.map_nil]
  | cons v items ih => rw [itemTrees, ih, List.map_cons]

/-- The trees of members are those of their values, each with its name. -/
theorem memberTrees_eq_map (members : List (String × Json)) :
    memberTrees members = members.map fun m => (some m.1, m.2.toTree) := by
  induction members with
  | nil => rw [memberTrees, List.map_nil]
  | cons m members ih =>
    obtain ⟨key, v⟩ := m
    rw [memberTrees, ih, List.map_cons]

/-- Items are whole if each of them is. -/
theorem wholeItems_iff {items : List Json} : WholeItems items ↔ ∀ v ∈ items, v.Whole := by
  induction items with
  | nil => simp [WholeItems]
  | cons v items ih => rw [WholeItems, ih, List.forall_mem_cons]

/-- Members are whole if the value of each is. -/
theorem wholeMembers_iff {members : List (String × Json)} :
    WholeMembers members ↔ ∀ m ∈ members, m.2.Whole := by
  induction members with
  | nil => simp [WholeMembers]
  | cons m members ih =>
    obtain ⟨key, v⟩ := m
    rw [WholeMembers, ih, List.forall_mem_cons]

theorem whole_text (s : String) : (Json.text s).Whole := trivial

theorem whole_bool (b : Bool) : (Json.bool b).Whole := trivial

/-! ## Objects whose members may be left out -/

/-- The object with those members that have a value. -/
def ofEntries (entries : List (String × Option Json)) : Json :=
  .object (entries.filterMap fun e => e.2.map (e.1, ·))

/-- An object is whole if the members that it is written with are. -/
theorem whole_ofEntries {entries : List (String × Option Json)}
    (h : ∀ e ∈ entries, ∀ v, e.2 = some v → v.Whole) : (ofEntries entries).Whole := by
  rw [ofEntries, Whole, wholeMembers_iff]
  intro m hm
  obtain ⟨e, he, heq⟩ := List.mem_filterMap.mp hm
  obtain ⟨v, hv, rfl⟩ := Option.map_eq_some_iff.mp heq
  exact h e he v hv

/-- Of members with different keys, the one with a given key. -/
theorem filter_members {entries : List (String × Option Json)}
    (hkeys : (entries.map Prod.fst).Nodup) {e : String × Option Json} (he : e ∈ entries) :
    (entries.filterMap fun e => e.2.map (e.1, ·)).filter (fun m => m.1 = e.1)
      = (e.2.map (e.1, ·)).toList := by
  -- no entry behind the one with the key has the key again
  have hothers : ∀ entries : List (String × Option Json), e.1 ∉ entries.map Prod.fst →
      (entries.filterMap fun e => e.2.map (e.1, ·)).filter (fun m => m.1 = e.1) = [] := by
    intro entries hout
    refine List.filter_eq_nil_iff.mpr fun m hm => ?_
    obtain ⟨e', he', heq⟩ := List.mem_filterMap.mp hm
    obtain ⟨v, -, rfl⟩ := Option.map_eq_some_iff.mp heq
    rw [decide_eq_true_eq]
    exact fun hname => hout (hname ▸ List.mem_map_of_mem he')
  induction entries with
  | nil => exact absurd he (List.not_mem_nil)
  | cons a entries ih =>
    rw [List.map_cons, List.nodup_cons] at hkeys
    rcases List.mem_cons.mp he with rfl | hmem
    · have hrest := hothers entries hkeys.1
      obtain ⟨key, value⟩ := e
      cases value with
      | none => simpa using hrest
      | some v => simpa using hrest
    · have hne : a.1 ≠ e.1 := fun h => hkeys.1 (h ▸ List.mem_map_of_mem hmem)
      obtain ⟨key, value⟩ := a
      cases value with
      | none => simpa using ih hkeys.2 hmem
      | some v => simpa [hne] using ih hkeys.2 hmem

namespace Decoder

/-- The fields of a record are found among its members, whichever are left out. -/
theorem slotsOfMembers_ofEntries (entries : List (String × Option Json)) (fields : List String)
    (hfields : entries.map Prod.fst = fields) (hnodup : fields.Nodup) :
    slotsOfMembers fields (memberTrees (entries.filterMap fun e => e.2.map (e.1, ·)))
      = some (entries.map fun e => e.2.map toTree) := by
  subst hfields
  generalize hmembers : (entries.filterMap fun e => e.2.map (e.1, ·)) = members
  have hnames : (memberTrees members).mapM (fun m => m.1.map (·, m.2))
      = some (members.map fun m => (m.1, m.2.toTree)) := by
    rw [memberTrees_eq_map]
    exact mapM_eq_some.mpr (List.forall₂_map_left_iff.mpr
      (List.forall₂_map_right_iff.mpr (List.forall₂_same.mpr fun _ _ => rfl)))
  -- each field is given once at most, so it has one slot
  have hslot : ∀ e ∈ entries,
      slot? (members.map fun m => (m.1, m.2.toTree)) e.1 = some (e.2.map toTree) := by
    intro e he
    have hmember := filter_members hnodup he
    rw [hmembers] at hmember
    have hfilter : (members.map fun m => (m.1, m.2.toTree)).filter (fun m => m.1 = e.1)
        = (members.filter fun m => m.1 = e.1).map fun m => (m.1, m.2.toTree) := by
      rw [List.filter_map]
      rfl
    unfold slot?
    rw [hfilter, hmember]
    cases e.2 <;> rfl
  show ((memberTrees members).mapM (fun m => m.1.map (·, m.2)) >>= fun members =>
    (entries.map Prod.fst).mapM (slot? members)) = _
  rw [hnames]
  exact mapM_eq_some.mpr (List.forall₂_map_left_iff.mpr
    (List.forall₂_map_right_iff.mpr (List.forall₂_same.mpr hslot)))

/-- The fields of a record are found in its tree, whichever are left out. -/
theorem slots_ofEntries (entries : List (String × Option Json)) (fields : List String)
    (hfields : entries.map Prod.fst = fields) (hnodup : fields.Nodup) (levels : Nat) :
    slots fields (levels + 1) (ofEntries entries).toTree
      = some (entries.map fun e => e.2.map toTree) := by
  rw [ofEntries, toTree]
  exact slotsOfMembers_ofEntries entries fields hfields hnodup

/-! ## Reading back -/

variable {α : Type}

/-- A value is written without doubles and read as `x`. -/
structure Reads (d : Decoder α) (levels : Nat) (v : Json) (x : α) : Prop where
  whole : v.Whole
  decodes : d levels v.toTree = some x

/-- What is read from a value is read from its text. -/
theorem Reads.parse?_bind {d : Decoder α} {levels : Nat} {v : Json} {x : α}
    (h : d.Reads levels v x) : (Tree.parse? v.compact).bind (d levels) = some x := by
  rw [parse?_compact h.whole, Option.bind_some, h.decodes]

/-- A required member that is there is read as what it is. -/
theorem required_some (d : Decoder α) (levels : Nat) (t : Tree) :
    required d levels (some t) = d levels t := rfl

/-- A default does not count where there is a member. -/
theorem withDefault_some (default : α) (d : Decoder α) (levels : Nat) (t : Tree) :
    withDefault default d levels (some t) = d levels t := rfl

/-- An optional part that is left out when there is none is read back. -/
theorem withDefault_nullable {d : Decoder α} {levels : Nat} {f : α → Json}
    (hd : ∀ x, d.Reads levels (f x) x) (hnull : ∀ x, (f x).toTree ≠ .null) (o : Option α) :
    withDefault none (nullable d) levels ((o.map f).map toTree) = some o := by
  cases o with
  | none => rfl
  | some x =>
    show nullable d levels (f x).toTree = some (some x)
    unfold nullable
    split
    next hx => exact absurd hx (hnull x)
    next => rw [(hd x).decodes, Option.map_some]

theorem reads_text (levels : Nat) (s : String) : text.Reads levels (.text s) s :=
  ⟨whole_text s, rfl⟩

theorem reads_bool (levels : Nat) (b : Bool) : bool.Reads levels (.bool b) b :=
  ⟨whole_bool b, rfl⟩

/-- A list is read back if its items are. -/
theorem reads_list {d : Decoder α} {levels : Nat} {f : α → Json} {xs : List α}
    (h : ∀ x ∈ xs, d.Reads levels (f x) x) :
    (list d).Reads (levels + 1) (.array (xs.map f)) xs := by
  constructor
  · rw [Whole, wholeItems_iff]
    intro v hv
    obtain ⟨x, hx, rfl⟩ := List.mem_map.mp hv
    exact (h x hx).whole
  · rw [toTree, itemTrees_eq_map, list, if_neg (by omega)]
    exact mapM_eq_some.mpr (List.forall₂_map_left_iff.mpr (List.forall₂_map_left_iff.mpr
      (List.forall₂_same.mpr fun x hx => (h x hx).decodes)))

/-- A list of texts is read back, one level deep. -/
theorem reads_texts (levels : Nat) (texts : List String) :
    (list text).Reads (levels + 1) (.ofTexts texts) texts :=
  reads_list fun s _ => reads_text levels s

/-- A text that is left out is read as none. -/
theorem withDefault_text (levels : Nat) (o : Option String) :
    withDefault none (nullable text) levels ((o.map .text).map toTree) = some o :=
  withDefault_nullable (reads_text levels) (fun _ h => nomatch h) o

end Decoder

end TypedEntities.Json
