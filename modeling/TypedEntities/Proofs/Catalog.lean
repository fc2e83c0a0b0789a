import Mathlib
import TypedEntities.Catalog
import TypedEntities.Proofs.Listing
import TypedEntities.Proofs.Table

/-!
# The entity types of a catalog

A catalog keeps every entity type under its own name (`Catalog.name_eq_of_get?`), so the types that
get a model are the entries that are not excluded. An edge is put behind the edges of its parent,
unless it is one of them (`Catalog.getD_addEdge_self`); so the subtypes of a type are all that are
stated below it, in the order in which they are stated for the first time
(`Catalog.subtypes_eq_eraseDups`), and one type is below another if either of the two says so
(`Catalog.mem_subtypes_iff`). The order in which types with different names are listed, and the order
of their fields, have no bearing on the catalog (`Catalog.alike_ofList`).
-/

namespace TypedEntities.Catalog

open TypedEntities.Metadata

/-! ## Entries -/

/-- An entity type stands under its name. -/
theorem name_eq_of_get? {types : List Entity} {name : String} {entity : Entity}
    (h : (ofList types).entities.get? name = some entity) : entity.name = name := by
  have hmem : (name, entity) ∈ (ofList types).entities.entries := Table.get?_eq_some_iff.mp h
  obtain ⟨e, -, heq⟩ := List.mem_map.mp (Table.mem_of_mem_ofList hmem)
  obtain ⟨rfl, rfl⟩ := Prod.mk.inj heq
  rfl

/-- A catalog finds each of its types under its name. -/
theorem get?_of_mem_values {types : List Entity} {entity : Entity}
    (h : entity ∈ (ofList types).entities.values) : (ofList types).get? entity.name = some entity := by
  obtain ⟨⟨name, e⟩, hentry, rfl⟩ := List.mem_map.mp h
  have hget : (ofList types).entities.get? name = some e := Table.get?_eq_some_iff.mpr hentry
  show (ofList types).entities.get? e.name = some e
  rw [name_eq_of_get? hget]
  exact hget

theorem mem_values_of_get? {types : List Entity} {name : String} {entity : Entity}
    (h : (ofList types).get? name = some entity) : entity ∈ (ofList types).entities.values :=
  List.mem_map_of_mem (f := Prod.snd) (Table.get?_eq_some_iff.mp h)

/-- A type that gets a model is one of the entries that are not excluded. -/
theorem exists_of_isGenerated {types : List Entity} {name : String}
    (h : (ofList types).isGenerated name = true) :
    ∃ e ∈ (ofList types).entities.values.filter (fun e => !isExcluded e.name), e.name = name := by
  obtain ⟨hcontains, hexcluded⟩ := Bool.and_eq_true_iff.mp h
  obtain ⟨e, he⟩ := Option.isSome_iff_exists.mp hcontains
  have hname := name_eq_of_get? he
  refine ⟨e, List.mem_filter.mpr ⟨?_, by rwa [hname]⟩, hname⟩
  exact List.mem_map_of_mem (f := Prod.snd) (Table.get?_eq_some_iff.mp he)

/-- Of several types with one name the last one counts. -/
theorem get?_ofList (types : List Entity) (name : String) :
    (ofList types).get? name = types.reverse.find? fun e => e.name = name := by
  show (Table.ofList (types.map fun e => (e.name, e))).get? name = _
  rw [Table.get?_ofList, ← List.map_reverse, List.find?_map, Option.map_map]
  exact Option.map_id' ..

/-- The names of a catalog are those of its types, in their order. -/
theorem names_ofList (types : List Entity) :
    (ofList types).names = (ofList types).entities.values.map Entity.name := by
  unfold names Table.keys Table.values
  rw [List.map_map]
  refine List.map_congr_left fun entry hentry => ?_
  exact (name_eq_of_get? (Table.get?_eq_some_iff.mpr hentry)).symm

theorem filter_names_ofList (types : List Entity) (f : String → Bool) :
    (ofList types).names.filter f
      = ((ofList types).entities.values.filter fun e => f e.name).map Entity.name := by
  rw [names_ofList, List.filter_map]
  rfl

/-- A catalog knows the names of the entity types that it is made of. -/
theorem mem_names_ofList {types : List Entity} {name : String} :
    name ∈ (ofList types).names ↔ name ∈ types.map Entity.name := by
  unfold names ofList
  rw [Table.mem_keys_ofList, List.map_map]
  rfl

/-! ## The edges that are stated -/

/-- The subtypes that a type lists itself; none if the type is not known. -/
def listed (c : Catalog) (parent : String) : List String :=
  ((c.get? parent).map Entity.declaredSubtypes).getD []

/-- The types that name the parent themselves, in ascending order. -/
def naming (c : Catalog) (parent : String) : List String :=
  (c.entities.entries.filter fun x => x.2.parent? = some parent).map Prod.fst

/-- The children that a parent lists are those that it declares. -/
theorem mem_listed_iff {c : Catalog} {parent child : String} :
    child ∈ c.listed parent ↔ ∃ e, c.get? parent = some e ∧ child ∈ e.declaredSubtypes := by
  unfold listed
  cases c.get? parent <;> simp

/-- The children that name a parent are those that have it as theirs. -/
theorem mem_naming_iff {c : Catalog} {parent child : String} :
    child ∈ c.naming parent ↔ ∃ e, c.get? child = some e ∧ e.parent? = some parent := by
  simp [naming, get?, Table.get?_eq_some_iff]

theorem pairwise_naming (c : Catalog) (parent : String) : (c.naming parent).Pairwise (· < ·) :=
  c.entities.ascending.sublist (List.filter_sublist.map _)

/-- The edges that parents state, below one of them. -/
theorem map_snd_filter_flatMap (l : List (String × Entity)) (parent : String) :
    ((l.flatMap fun (name, e) => e.declaredSubtypes.map fun child => (name, child)).filter
        fun edge => edge.1 = parent).map Prod.snd
      = (l.filter fun x => x.1 = parent).flatMap fun x => x.2.declaredSubtypes := by
  induction l with
  | nil => rfl
  | cons x l ih =>
    rw [List.flatMap_cons, List.filter_append, List.map_append, ih]
    by_cases h : x.1 = parent
    · simp [h, List.filter_map, Function.comp_def]
    · simp [h, List.filter_map, Function.comp_def]

/-- The edges that children state, below one parent. -/
theorem map_snd_filter_filterMap (l : List (String × Entity)) (parent : String) :
    ((l.filterMap fun (name, e) => e.parent?.map fun named => (named, name)).filter
        fun edge => edge.1 = parent).map Prod.snd
      = (l.filter fun x => x.2.parent? = some parent).map Prod.fst := by
  induction l with
  | nil => rfl
  | cons x l ih =>
    obtain ⟨name, e⟩ := x
    cases hparent : e.parent? with
    | none => simpa [hparent] using ih
    | some named => by_cases h : named = parent <;> simpa [hparent, h] using ih

/-- Below a parent is stated what it lists, and then the types that name it. -/
theorem map_snd_statedEdges (c : Catalog) (parent : String) :
    ((statedEdges c.entities).filter fun edge => edge.1 = parent).map Prod.snd
      = c.listed parent ++ c.naming parent := by
  unfold statedEdges
  rw [List.filter_append, List.map_append, map_snd_filter_flatMap, map_snd_filter_filterMap,
    Table.filter_entries_eq]
  unfold listed naming get?
  cases c.entities.get? parent <;> simp

/-! ## One edge after the other -/

/-- The edges of a parent after one more. -/
theorem getD_addEdge_self (edges : Table String (List String)) (parent child : String) :
    ((addEdge edges parent child).get? parent).getD []
      = if child ∈ (edges.get? parent).getD [] then (edges.get? parent).getD []
        else (edges.get? parent).getD [] ++ [child] := by
  unfold addEdge
  rw [Table.get?_upsert_self, Option.getD_some]

/-- An edge from one parent adds nothing to another. -/
theorem getD_addEdge_of_ne {edges : Table String (List String)} {parent other : String}
    (child : String) (h : other ≠ parent) :
    ((addEdge edges parent child).get? other).getD [] = (edges.get? other).getD [] := by
  unfold addEdge
  rw [Table.get?_upsert_of_ne _ _ h]

/-- The edges of a parent are those that were added, in the order in which they came first. -/
theorem getD_foldl_addEdge (l : List (String × String)) (parent : String) :
    ((l.foldl (fun edges e => addEdge edges e.1 e.2) Table.empty).get? parent).getD []
      = ((l.filter fun edge => edge.1 = parent).map Prod.snd).eraseDups := by
  -- from the end, since the edge that is added last looks at all edges before it
  induction l using List.reverseRecOn with
  | nil => rfl
  | append_singleton l edge ih =>
    rw [List.foldl_append, List.foldl_cons, List.foldl_nil, List.filter_append, List.map_append]
    by_cases h : edge.1 = parent
    · have hedge : ([edge].filter fun edge => edge.1 = parent).map Prod.snd = [edge.2] := by
        simp [h]
      rw [hedge, eraseDups_concat, ← ih, h, getD_addEdge_self]
    · have hedge : ([edge].filter fun edge => edge.1 = parent).map Prod.snd = [] := by simp [h]
      rw [hedge, List.append_nil, getD_addEdge_of_ne _ (Ne.symm h), ih]

/-- **The subtypes of a type** are those that it lists and then the types that name it, each where
it stands first. -/
theorem subtypes_eq_eraseDups (types : List Entity) (parent : String) :
    (ofList types).subtypes parent
      = ((ofList types).listed parent ++ (ofList types).naming parent).eraseDups := by
  rw [← map_snd_statedEdges, ← getD_foldl_addEdge]
  rfl

/-- **A type is below another if either of the two says so.** -/
theorem mem_subtypes_iff {types : List Entity} {parent child : String} :
    child ∈ (ofList types).subtypes parent
      ↔ (∃ e, (ofList types).get? parent = some e ∧ child ∈ e.declaredSubtypes)
        ∨ ∃ e, (ofList types).get? child = some e ∧ e.parent? = some parent := by
  rw [subtypes_eq_eraseDups, List.mem_eraseDups, List.mem_append, mem_listed_iff, mem_naming_iff]

/-! ## The order of types and fields -/

/-- The same entity type, but for the order of its fields. -/
structure SameType (a b : Entity) : Prop where
  eq_withFields : b = a.withFields b.fields
  fields_perm : a.fields.Perm b.fields

theorem SameType.refl (a : Entity) : SameType a a := ⟨rfl, .refl _⟩

/-- Types that are the same but for the order of their fields share the name. -/
theorem SameType.name_eq {a b : Entity} (h : SameType a b) : a.name = b.name := by
  rw [h.eq_withFields]
  rfl

/-- Catalogs with the same subtypes whose entity types are related in pairs. -/
structure Alike (P : Entity → Entity → Prop) (c d : Catalog) : Prop where
  edges : c.edges = d.edges
  entities : c.entities.Related P d.entities

variable {P : Entity → Entity → Prop} {c d : Catalog}

/-- What an entry says about subtypes. -/
def stated (x : String × Entity) : String × List String × Option String :=
  (x.1, x.2.declaredSubtypes, x.2.parent?)

theorem statedEdges_eq_map (t : Table String Entity) :
    statedEdges t
      = ((t.entries.map stated).flatMap fun x => x.2.1.map fun child => (x.1, child))
        ++ (t.entries.map stated).filterMap fun x => x.2.2.map fun parent => (parent, x.1) := by
  rw [List.flatMap_map, List.filterMap_map]
  rfl

/-- The subtypes that types state do not depend on the order of fields. -/
theorem statedEdges_eq (hP : ∀ a b, P a b → SameType a b) {s t : Table String Entity}
    (h : s.Related P t) : statedEdges s = statedEdges t := by
  have hstated : s.entries.map stated = t.entries.map stated := by
    refine map_eq_of_forall₂ (fun x y hxy => ?_) h
    unfold stated
    rw [hxy.1, (hP _ _ hxy.2).eq_withFields]
    rfl
  rw [statedEdges_eq_map, statedEdges_eq_map, hstated]

/-- **A catalog does not depend on the order of types and fields**: types with different names may
be listed in any order before the last one, and the fields of each in any order. -/
theorem alike_ofList (hP : ∀ a b, P a b → SameType a b) {types moved types' : List Entity}
    (hnames : (types.map Entity.name).Nodup) (hmoved : types.Perm moved)
    (h : List.Forall₂ P moved types') {last last' : Entity} (hlast : P last last') :
    Alike P (ofList (types ++ [last])) (ofList (types' ++ [last'])) := by
  let entry : Entity → String × Entity := fun e => (e.name, e)
  -- the last type is put in after all others and may replace one of them
  have hinsert : ∀ (l : List Entity) (e : Entity),
      (ofList (l ++ [e])).entities = (Table.ofList (l.map entry)).insert e.name e := by
    intro l e
    show Table.ofList ((l ++ [e]).map entry) = _
    unfold Table.ofList
    rw [List.map_append, List.foldl_append]
    rfl
  have hentities : (ofList (types ++ [last])).entities.Related P
      (ofList (types' ++ [last'])).entities := by
    have htable : Table.ofList (types.map entry) = Table.ofList (moved.map entry) := by
      refine Table.ofList_eq_of_perm (hmoved.map entry) ?_
      rwa [List.map_map]
    have hrelated : (Table.ofList (moved.map entry)).Related P
        (Table.ofList (types'.map entry)) := by
      refine Table.related_ofList ?_
      rw [List.forall₂_map_left_iff, List.forall₂_map_right_iff]
      exact h.imp fun a b hab => ⟨(hP a b hab).name_eq, hab⟩
    rw [hinsert, hinsert, htable, ← (hP _ _ hlast).name_eq]
    exact hrelated.insert last.name hlast
  refine ⟨?_, hentities⟩
  have hedges : ∀ l : List Entity, (ofList l).edges
      = (statedEdges (ofList l).entities).foldl (fun edges e => addEdge edges e.1 e.2)
        Table.empty := fun _ => rfl
  rw [hedges, hedges, statedEdges_eq hP hentities]

theorem Alike.names_eq (h : Alike P c d) : c.names = d.names := h.entities.keys_eq

/-! ## What references depend on -/

theorem isGenerated_eq_of_names_eq (h : c.names = d.names) : c.isGenerated = d.isGenerated := by
  have hcontains : ∀ name, c.contains name = d.contains name := by
    intro name
    rw [Bool.eq_iff_iff]
    show c.entities.contains name = true ↔ d.entities.contains name = true
    rw [Table.contains_iff, Table.contains_iff]
    show name ∈ c.names ↔ name ∈ d.names
    rw [h]
  funext name
  unfold isGenerated
  rw [hcontains]

/-- A walk looks at the subtypes only. -/
theorem walk_eq_of_edges_eq (h : c.edges = d.edges) (fuel : Nat) (waiting seen : List String) :
    c.walk fuel waiting seen = d.walk fuel waiting seen := by
  have hsubtypes : c.subtypes = d.subtypes := by
    funext name
    unfold subtypes
    rw [h]
  induction fuel generalizing waiting seen with
  | zero => rfl
  | succ fuel ih =>
    cases waiting with
    | nil => rfl
    | cons name waiting =>
      unfold walk
      rw [hsubtypes]
      simp only [ih]

theorem leaves_eq_of_edges_eq (h : c.edges = d.edges) : c.leaves = d.leaves := by
  funext name
  unfold leaves edgeCount
  rw [h, walk_eq_of_edges_eq h]

end TypedEntities.Catalog
