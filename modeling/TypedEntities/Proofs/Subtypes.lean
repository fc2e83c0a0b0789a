import Mathlib
import TypedEntities.Proofs.Catalog

/-!
# Subtypes in their order

Two types may state one and the same relation: the parent lists the child, the child names the
parent. `Catalog.indexes_ofList` says what a catalog makes of that: the subtypes of a type are those
that it lists and those that name it, each once, and those that it lists come first. Types that were
replaced have no part in it, and the order of types with different names has no bearing on it. What
is said of the catalog leaves nothing open (`Catalog.Indexes.answers_eq`).

What carries the proof is that parents are heard before children, and children in the order of their
names (`Catalog.subtypes_eq_eraseDups`): what stands before another child where the edges are stated
precedes it (`Catalog.precedes_of_idxOf_lt`).
-/

namespace TypedEntities

open TypedEntities.Metadata

/-! ## What a type says first -/

namespace Metadata.Entity

variable {α : Type} {e : Entity}

/-- The first feature of its kind that the type has holds `a`. -/
def SaysFirst (e : Entity) (kind : α → Feature) (a : α) : Prop :=
  ∃ before after, e.features = before ++ kind a :: after ∧ ∀ other, kind other ∉ before

/-- A search that answers to the features of one kind finds the first of them. -/
theorem findSome?_features_iff {kind : α → Feature} {f : Feature → Option α}
    (hf : ∀ feature a, f feature = some a ↔ feature = kind a) {a : α} :
    e.features.findSome? f = some a ↔ e.SaysFirst kind a := by
  have hnone : ∀ feature, f feature = none ↔ ∀ other, feature ≠ kind other := fun feature => by
    simp only [Option.eq_none_iff_forall_ne_some, ne_eq, hf]
  rw [List.findSome?_eq_some_iff]
  constructor
  · intro hfound
    obtain ⟨before, feature, after, hsplit, hfeature, hbefore⟩ := hfound
    rw [(hf feature a).mp hfeature] at hsplit
    exact ⟨before, after, hsplit, fun other hmem => (hnone _).mp (hbefore _ hmem) other rfl⟩
  · intro hfirst
    obtain ⟨before, after, hsplit, hbefore⟩ := hfirst
    refine ⟨before, kind a, after, hsplit, (hf _ a).mpr rfl, fun feature hmem => ?_⟩
    exact (hnone feature).mpr fun other heq => hbefore other (heq ▸ hmem)

theorem parent?_eq_some_iff {parent : String} :
    e.parent? = some parent ↔ e.SaysFirst .subtypeOf parent :=
  findSome?_features_iff fun feature _ => by cases feature <;> simp

/-- What a type declares is the first list of subtypes that it has, if it has one. -/
theorem exists_declaredSubtypes_eq (e : Entity) :
    ∃ first : Option (List String), e.declaredSubtypes = first.getD []
      ∧ ∀ children, first = some children ↔ e.SaysFirst .subtypes children :=
  ⟨_, rfl, fun _ => findSome?_features_iff fun feature _ => by cases feature <;> simp⟩

theorem SaysFirst.declaredSubtypes_eq {children : List String}
    (h : e.SaysFirst .subtypes children) : e.declaredSubtypes = children := by
  obtain ⟨first, hdeclared, hfirst⟩ := e.exists_declaredSubtypes_eq
  rw [hdeclared, (hfirst children).mpr h, Option.getD_some]

theorem mem_declaredSubtypes_iff {child : String} :
    child ∈ e.declaredSubtypes
      ↔ ∃ children, e.SaysFirst .subtypes children ∧ child ∈ children := by
  obtain ⟨first, hdeclared, hfirst⟩ := e.exists_declaredSubtypes_eq
  rw [hdeclared]
  cases first with
  | none => simp [← hfirst]
  | some children => simp [← hfirst]

end Metadata.Entity

namespace Catalog

variable {c : Catalog} {types : List Entity} {parent : String}

/-! ## Who lists and who names whom -/

/-- A type of the catalog has the child in its first list of subtypes. -/
def Lists (c : Catalog) (parent child : String) : Prop :=
  ∃ e children, c.get? parent = some e ∧ e.SaysFirst .subtypes children ∧ child ∈ children

/-- A type of the catalog says first of all parents that it is a subtype of this one. -/
def Names (c : Catalog) (child parent : String) : Prop :=
  ∃ e, c.get? child = some e ∧ e.SaysFirst .subtypeOf parent

theorem lists_iff {child : String} : c.Lists parent child ↔ child ∈ c.listed parent := by
  simp only [Lists, mem_listed_iff, Entity.mem_declaredSubtypes_iff, exists_and_left]

theorem names_iff {child : String} : c.Names child parent ↔ child ∈ c.naming parent := by
  simp only [Names, mem_naming_iff, Entity.parent?_eq_some_iff]

theorem listed_eq {e : Entity} {children : List String} (hget : c.get? parent = some e)
    (hfirst : e.SaysFirst .subtypes children) : c.listed parent = children := by
  unfold listed
  rw [hget]
  exact hfirst.declaredSubtypes_eq

/-! ## The order of subtypes -/

/-- The order among the subtypes of a type: first those that it lists, as it lists them, then the
others by name. -/
inductive Precedes (c : Catalog) (parent : String) : String → String → Prop
  | asListed {e : Entity} {children : List String} {a b : String} (hget : c.get? parent = some e)
      (hfirst : e.SaysFirst .subtypes children) (hb : b ∈ children)
      (h : children.idxOf a < children.idxOf b) : Precedes c parent a b
  | listedFirst {a b : String} (ha : c.Lists parent a) (hb : ¬c.Lists parent b) :
      Precedes c parent a b
  | byName {a b : String} (ha : ¬c.Lists parent a) (hb : ¬c.Lists parent b) (h : a < b) :
      Precedes c parent a b

variable {a b : String}

/-- The order among subtypes by their places in what the parent lists. -/
theorem precedes_iff :
    c.Precedes parent a b
      ↔ b ∈ c.listed parent ∧ (c.listed parent).idxOf a < (c.listed parent).idxOf b
        ∨ b ∉ c.listed parent ∧ (a ∈ c.listed parent ∨ a < b) := by
  constructor
  · intro h
    cases h with
    | asListed hget hfirst hb h =>
      rw [listed_eq hget hfirst]
      exact .inl ⟨hb, h⟩
    | listedFirst ha hb => exact .inr ⟨mt lists_iff.mpr hb, .inl (lists_iff.mp ha)⟩
    | byName _ hb h => exact .inr ⟨mt lists_iff.mpr hb, .inr h⟩
  · rintro (⟨hb, h⟩ | ⟨hb, h⟩)
    · obtain ⟨e, children, hget, hfirst, hmem⟩ := lists_iff.mpr hb
      rw [listed_eq hget hfirst] at h
      exact .asListed hget hfirst hmem h
    · have hb' := mt lists_iff.mp hb
      by_cases ha : c.Lists parent a
      · exact .listedFirst ha hb'
      · exact .byName ha hb' (h.resolve_left (mt lists_iff.mpr ha))

theorem Precedes.asymm (h : c.Precedes parent a b) : ¬c.Precedes parent b a := by
  rw [precedes_iff] at h ⊢
  rcases h with ⟨hb, hlt⟩ | ⟨hb, h⟩
  · have ha : a ∈ c.listed parent :=
      List.idxOf_lt_length_iff.mp (hlt.trans_le List.idxOf_le_length)
    rintro (⟨-, hlt'⟩ | ⟨ha', -⟩)
    · exact hlt.asymm hlt'
    · exact ha' ha
  · rintro (⟨ha, hlt⟩ | ⟨ha, h'⟩)
    · -- `b` is not listed, so nothing that is listed stands behind it
      rw [List.idxOf_of_notMem hb] at hlt
      exact List.idxOf_le_length.not_gt hlt
    · exact (h.resolve_left ha).asymm (h'.resolve_left hb)

/-- What is stated below a parent before another child precedes it. -/
theorem precedes_of_idxOf_lt (hb : b ∈ c.listed parent ++ c.naming parent)
    (h : (c.listed parent ++ c.naming parent).idxOf a
      < (c.listed parent ++ c.naming parent).idxOf b) : c.Precedes parent a b := by
  rw [precedes_iff]
  rw [List.idxOf_append, List.idxOf_append] at h
  by_cases hlb : b ∈ c.listed parent
  · rw [if_pos hlb] at h
    have hbound := List.idxOf_lt_length_iff.mpr hlb
    split at h
    next => exact .inl ⟨hlb, h⟩
    next => omega
  · rw [if_neg hlb] at h
    refine .inr ⟨hlb, ?_⟩
    split at h
    next hla => exact .inl hla
    next =>
      -- neither is listed, so they stand in the second part, which ascends
      have hnamed : b ∈ c.naming parent := (List.mem_append.mp hb).resolve_left hlb
      have hbefore : (c.naming parent).idxOf a < (c.naming parent).idxOf b := by omega
      exact .inr (rel_of_idxOf_lt (c.pairwise_naming parent) hnamed hbefore)

theorem pairwise_precedes_subtypes (types : List Entity) (parent : String) :
    ((ofList types).subtypes parent).Pairwise ((ofList types).Precedes parent) := by
  rw [subtypes_eq_eraseDups]
  refine (pairwise_idxOf_eraseDups _).imp_of_mem fun _ hb h => ?_
  exact precedes_of_idxOf_lt (List.mem_eraseDups.mp hb) h

/-! ## What has no bearing on a catalog -/

/-- The types by name decide which edges there are. -/
theorem ofList_eq_of_entities_eq {others : List Entity}
    (h : (ofList types).entities = (ofList others).entities) : ofList types = ofList others := by
  have hmk : ∀ l : List Entity, ofList l = ⟨(ofList l).entities,
      (statedEdges (ofList l).entities).foldl (fun edges e => addEdge edges e.1 e.2)
        Table.empty⟩ := fun _ => rfl
  rw [hmk types, hmk others, h]

/-- A type that is replaced later has no part in a catalog. -/
theorem ofList_eq_of_replaced {before after : List Entity} {e : Entity}
    (h : e.name ∈ after.map Entity.name) :
    ofList (before ++ e :: after) = ofList (before ++ after) := by
  refine ofList_eq_of_entities_eq (Table.eq_of_get?_eq fun name => ?_)
  show (ofList (before ++ e :: after)).get? name = (ofList (before ++ after)).get? name
  rw [get?_ofList, get?_ofList]
  simp only [List.reverse_append, List.reverse_cons, List.append_assoc, List.find?_append]
  by_cases hname : e.name = name
  · -- both searches end at a later type
    obtain ⟨later, hlater, hsame⟩ := List.mem_map.mp h
    have hsome : (after.reverse.find? fun e => e.name = name).isSome :=
      List.find?_isSome.mpr ⟨later, List.mem_reverse.mpr hlater, by simp [hsame, hname]⟩
    rw [Option.or_of_isSome hsome, Option.or_of_isSome hsome]
  · rw [List.find?_cons_of_neg (by simp [hname]), List.find?_nil, Option.none_or]

/-- The order of types with different names has no bearing on a catalog. -/
theorem ofList_eq_of_perm {moved : List Entity} (hnames : (types.map Entity.name).Nodup)
    (h : types.Perm moved) : ofList types = ofList moved := by
  refine ofList_eq_of_entities_eq (Table.ofList_eq_of_perm (h.map _) ?_)
  rwa [List.map_map]

/-! ## What a catalog finds -/

/-- What a catalog finds of the types that it was made of. -/
structure Indexes (c : Catalog) (types : List Entity) : Prop where
  get?_eq (name : String) : c.get? name = (types.filter fun e => e.name = name).getLast?
  mem_subtypes (parent child : String) :
    child ∈ c.subtypes parent ↔ c.Lists parent child ∨ c.Names child parent
  nodup (parent : String) : (c.subtypes parent).Nodup
  ordered (parent : String) : (c.subtypes parent).Pairwise (c.Precedes parent)

/-- Catalogs that index the same types answer the same: what is indexed leaves nothing open. -/
theorem Indexes.answers_eq {d : Catalog} (hc : c.Indexes types) (hd : d.Indexes types) :
    c.get? = d.get? ∧ c.subtypes = d.subtypes := by
  have hget : c.get? = d.get? := funext fun name => (hc.get?_eq name).trans (hd.get?_eq name).symm
  have hprecedes : d.Precedes = c.Precedes := by
    have hlisted : d.listed = c.listed := by
      unfold listed
      rw [hget]
    funext parent a b
    rw [eq_iff_iff, precedes_iff, precedes_iff, hlisted]
  refine ⟨hget, funext fun parent => ?_⟩
  have hantisymm : Std.Antisymm (c.Precedes parent) := ⟨fun _ _ h h' => absurd h' h.asymm⟩
  have hirrefl : Std.Irrefl (c.Precedes parent) := ⟨fun _ h => h.asymm h⟩
  refine (hc.ordered parent).eq_of_mem_iff (hprecedes ▸ hd.ordered parent) fun child => ?_
  rw [hc.mem_subtypes, hd.mem_subtypes]
  unfold Lists Names
  rw [hget]

/-- **A catalog indexes exactly what its types say.** A name finds the last type that has it; the
subtypes of a type are those that it lists and those that name it, each once and in their order.
A type that is replaced by a later one has no part in the catalog. Of types with different names the
catalog is the same in any order, and so is all that it is asked. -/
theorem indexes_ofList (types : List Entity) :
    (ofList types).Indexes types
      ∧ (∀ before e after, types = before ++ e :: after → e.name ∈ after.map Entity.name →
        ofList types = ofList (before ++ after))
      ∧ ((types.map Entity.name).Nodup → ∀ moved, types.Perm moved →
        ofList moved = ofList types) := by
  refine ⟨?_, ?_, fun hnames moved h => (ofList_eq_of_perm hnames h).symm⟩
  · constructor
    case get?_eq =>
      intro name
      rw [get?_ofList, List.getLast?_filter]
    case mem_subtypes =>
      intro parent child
      rw [subtypes_eq_eraseDups, List.mem_eraseDups, List.mem_append, lists_iff, names_iff]
    case nodup =>
      intro parent
      rw [subtypes_eq_eraseDups]
      exact nodup_eraseDups _
    case ordered => exact pairwise_precedes_subtypes types
  · intro before e after hsplit h
    rw [hsplit]
    exact ofList_eq_of_replaced h

/-- A type as it was said to be before. -/
def formerStory : Entity := (Entity.named "story").addFeature (.subtypes ["epic"])

/-- Types with a child and a parent that are not known, a child that is listed twice and names its
parent as well, and a type below itself. -/
def storyTypes : List Entity :=
  [(Entity.named "task").addFeature (.subtypeOf "story"),
    ((Entity.named "story").addFeature
      (.subtypes ["user_story", "story", "removed", "user_story"])).addFeature (.subtypes ["epic"]),
    (Entity.named "user_story").addFeature (.subtypeOf "story"),
    ((Entity.named "defect").addFeature (.subtypeOf "story")).addFeature (.subtypeOf "epic"),
    (Entity.named "epic").addFeature (.subtypeOf "initiative")]

theorem indexes_ofList_storyTypes :
    formerStory.name ∈ storyTypes.map Entity.name ∧ (storyTypes.map Entity.name).Nodup
      ∧ storyTypes.Perm storyTypes.reverse
      ∧ (ofList (formerStory :: storyTypes)).Indexes (formerStory :: storyTypes)
      ∧ ofList (formerStory :: storyTypes) = ofList storyTypes
      ∧ ofList storyTypes.reverse = ofList storyTypes
      ∧ (ofList (formerStory :: storyTypes)).subtypes "story"
        = ["user_story", "story", "removed", "defect", "task"]
      ∧ (ofList (formerStory :: storyTypes)).subtypes "initiative" = ["epic"]
      ∧ (ofList (formerStory :: storyTypes)).subtypes "epic" = [] := by
  have hreplaced : formerStory.name ∈ storyTypes.map Entity.name := by decide
  have hnames : (storyTypes.map Entity.name).Nodup := by decide
  have hperm : storyTypes.Perm storyTypes.reverse := storyTypes.reverse_perm.symm
  obtain ⟨hindexes, hwithout, -⟩ := indexes_ofList (formerStory :: storyTypes)
  obtain ⟨-, -, hmoved⟩ := indexes_ofList storyTypes
  exact ⟨hreplaced, hnames, hperm, hindexes, hwithout [] formerStory storyTypes rfl hreplaced,
    hmoved hnames _ hperm, by decide +kernel, by decide +kernel, by decide +kernel⟩

end Catalog

end TypedEntities
