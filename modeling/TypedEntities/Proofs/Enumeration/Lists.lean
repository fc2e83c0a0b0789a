import Mathlib
import TypedEntities.Enumeration.Lists
import TypedEntities.Proofs.Java.Distinct
import TypedEntities.Proofs.Table

/-!
# Enumerations hold their roots and values

`Lists.build` keeps every surviving root and value and makes up nothing. `Housed` says what that
means: each surviving root has an enumeration, its home, which begins with the root; each surviving
value is in the home of the first root with the id that it names, and nowhere else. The payoff is
`build_housed`.
-/

namespace TypedEntities.Lists

open TypedEntities.Metadata
open TypedEntities.Java (Sibling distinctConstants)

/-! ## Items -/

/-- What an item says of a node, without its constant. -/
structure Content where
  id : String
  name : String
  activity : Activity
deriving DecidableEq, Repr

/-- What a node says of itself in an enumeration. -/
def nodeContent (n : ListNode) : Content := ⟨n.id, n.name, n.activity⟩

/-- What an item says. -/
def itemContent (i : ListItem) : Content := ⟨i.id, i.name, i.activity⟩

/-- What values are sorted by. -/
def Content.key (c : Content) : Texts := ⟨[c.name, c.id]⟩

/-- Items say what their nodes say. -/
theorem map_content_zipWith_item {nodes : List ListNode} {constants : List String}
    (h : constants.length = nodes.length) :
    (List.zipWith item nodes constants).map itemContent = nodes.map nodeContent := by
  refine map_zipWith_left ?_ h.ge
  exact fun _ _ => rfl

/-- Items have the constants that their nodes get. -/
theorem map_identifier_zipWith_item {nodes : List ListNode} {constants : List String}
    (h : constants.length = nodes.length) :
    (List.zipWith item nodes constants).map ListItem.identifier = constants :=
  map_zipWith_right (fun _ _ => rfl) h.le

/-! ## One enumeration -/

theorem content_tail_enumOf (root : ListNode) (identifier : String) (values : List ListNode) :
    (enumOf root identifier values).items.tail.map itemContent = values.map nodeContent :=
  map_content_zipWith_item (by rw [Java.length_distinctConstants, List.length_map])

/-- The constants of an enumeration are distinct: that of the root is reserved, so no value has
it. -/
theorem nodup_identifiers_enumOf (root : ListNode) (identifier : String) (values : List ListNode) :
    ((enumOf root identifier values).items.map ListItem.identifier).Nodup := by
  have htail : (List.zipWith item values
      (distinctConstants (values.map sibling) (some identifier))).map ListItem.identifier
        = distinctConstants (values.map sibling) (some identifier) :=
    map_identifier_zipWith_item (by rw [Java.length_distinctConstants, List.length_map])
  unfold enumOf
  rw [List.map_cons, htail, List.nodup_cons]
  refine ⟨fun hmem => ?_, Java.nodup_distinctConstants _ _⟩
  exact Java.ne_reserved _ _ hmem rfl

/-- The values of an id are those that survive and name it, by name and id. -/
theorem valuesOf_perm (values : List ListNode) (id : String) :
    (valuesOf values id).Perm (values.filter fun v => v.activity ≠ .removed && v.root = some id) :=
  List.mergeSort_perm ..

theorem pairwise_valuesOf (values : List ListNode) (id : String) :
    (valuesOf values id).Pairwise fun a b => (sibling a).key ≤ (sibling b).key :=
  pairwise_mergeSort_key (fun v => (sibling v).key) _

/-! ## All enumerations -/

theorem length_enumsOf (values : List ListNode) (seen : List String)
    (named : List (ListNode × String)) : (enumsOf values seen named).length = named.length := by
  induction named generalizing seen with
  | nil => rfl
  | cons p rest ih => simp [enumsOf, ih]

theorem map_identifier_enumsOf (values : List ListNode) (seen : List String)
    (named : List (ListNode × String)) :
    (enumsOf values seen named).map ListEnum.identifier = named.map Prod.snd := by
  induction named generalizing seen with
  | nil => rfl
  | cons p rest ih =>
    rw [enumsOf, List.map_cons, List.map_cons, ih]
    rfl

/-- The enumeration of a root has the values of its id, unless an earlier root had them. -/
theorem eq_enumOf_of_split {values : List ListNode} {named : List (ListNode × String)} :
    ∀ {seen : List String} {before after : List ((ListNode × String) × ListEnum)}
      {p : ListNode × String} {e : ListEnum},
      named.zip (enumsOf values seen named) = before ++ (p, e) :: after →
      e = enumOf p.1 p.2
        (if p.1.id ∈ seen ∨ p.1.id ∈ before.map (fun h => h.1.1.id) then []
          else valuesOf values p.1.id) := by
  induction named with
  | nil =>
    intro seen before after p e h
    exact absurd h (by simp [enumsOf])
  | cons q rest ih =>
    intro seen before after p e h
    rw [enumsOf, List.zip_cons_cons] at h
    cases before with
    | nil =>
      rw [List.nil_append, List.cons.injEq, Prod.mk.injEq] at h
      obtain ⟨⟨rfl, rfl⟩, -⟩ := h
      simp
    | cons first before =>
      rw [List.cons_append, List.cons.injEq] at h
      obtain ⟨rfl, h⟩ := h
      rw [ih h]
      -- the first id was seen, whichever of the two lists it is in
      simp only [List.mem_cons, List.map_cons, or_assoc, or_left_comm]

/-- Whether a value survives and names one of the roots whose ids were not seen. -/
def below (seen : List String) (named : List (ListNode × String)) (v : ListNode) : Bool :=
  v.activity ≠ .removed && named.any fun p => p.1.id ∉ seen && v.root = some p.1.id

theorem below_iff {seen : List String} {named : List (ListNode × String)} {v : ListNode} :
    below seen named v ↔
      v.activity ≠ .removed ∧ ∃ p ∈ named, p.1.id ∉ seen ∧ v.root = some p.1.id := by
  simp [below]

/-- A value is below a root and others if it names the root, and that was not seen, or is below the
others once the root was seen. -/
theorem below_cons {seen : List String} {root : ListNode} {identifier : String}
    {rest : List (ListNode × String)} {v : ListNode} :
    below seen ((root, identifier) :: rest) v ↔
      (v.activity ≠ .removed ∧ root.id ∉ seen ∧ v.root = some root.id)
        ∨ below (root.id :: seen) rest v := by
  rw [below_iff, below_iff]
  constructor
  · intro hx
    obtain ⟨ha, p, hp, hns, hv⟩ := hx
    -- what names the id of the root is below the root, even if a later root has the same id
    by_cases hid : p.1.id = root.id
    · exact .inl ⟨ha, hid ▸ hns, hid ▸ hv⟩
    · rcases List.mem_cons.mp hp with rfl | hp
      · exact absurd rfl hid
      · exact .inr ⟨ha, p, hp, by simp [hid, hns], hv⟩
  · intro hx
    rcases hx with ⟨ha, hns, hv⟩ | ⟨ha, p, hp, hns, hv⟩
    · exact ⟨ha, (root, identifier), List.mem_cons_self .., hns, hv⟩
    · exact ⟨ha, p, List.mem_cons_of_mem _ hp, fun h => hns (List.mem_cons_of_mem _ h), hv⟩

/-- What one of two tests that exclude each other lets pass is what either lets pass. -/
theorem filter_append_filter_perm {α : Type} {p q r : α → Bool} (h : ∀ a, r a ↔ p a ∨ q a)
    (hex : ∀ a, p a → ¬q a) (l : List α) : (l.filter p ++ l.filter q).Perm (l.filter r) := by
  have hp : l.filter p = (l.filter r).filter p := by
    rw [List.filter_filter]
    refine List.filter_congr fun a _ => Bool.eq_iff_iff.mpr ?_
    rw [Bool.and_eq_true, h a]
    tauto
  have hq : l.filter q = (l.filter r).filter fun a => !p a := by
    rw [List.filter_filter]
    refine List.filter_congr fun a _ => Bool.eq_iff_iff.mpr ?_
    have := hex a
    rw [Bool.and_eq_true, h a, Bool.not_eq_true']
    cases hpa : p a <;> simp_all
  rw [hp, hq]
  exact List.filter_append_perm p _

/-- All enumerations together have the values below their roots, each once. -/
theorem values_enumsOf_perm (values : List ListNode) (seen : List String)
    (named : List (ListNode × String)) :
    ((enumsOf values seen named).flatMap fun e => e.items.tail.map itemContent).Perm
      ((values.filter (below seen named)).map nodeContent) := by
  induction named generalizing seen with
  | nil => simp [enumsOf, below]
  | cons p rest ih =>
    obtain ⟨root, identifier⟩ := p
    rw [enumsOf, List.flatMap_cons, content_tail_enumOf]
    by_cases hseen : root.id ∈ seen
    · -- the values of this id went to an earlier enumeration, so this one adds nothing
      rw [if_pos hseen, List.map_nil, List.nil_append]
      have hsame : values.filter (below (root.id :: seen) rest)
          = values.filter (below seen ((root, identifier) :: rest)) := by
        refine List.filter_congr fun v _ => Bool.eq_iff_iff.mpr ?_
        rw [below_cons]
        simp [hseen]
      exact hsame ▸ ih (root.id :: seen)
    · -- its own values, and then those that name none of the ids up to here
      rw [if_neg hseen]
      refine (((valuesOf_perm values root.id).map nodeContent).append (ih _)).trans ?_
      rw [← List.map_append]
      refine (filter_append_filter_perm ?_ ?_ values).map _
      · intro v
        rw [below_cons]
        simp [hseen]
      · intro v hown hbelow
        obtain ⟨-, p, -, hns, hv⟩ := below_iff.mp hbelow
        obtain ⟨-, hroot⟩ : v.activity ≠ .removed ∧ v.root = some root.id := by simpa using hown
        rw [hroot] at hv
        exact hns (List.mem_cons.mpr (.inl (Option.some.inj hv).symm))

/-! ## Homes -/

/-- The roots with their constants. -/
def named (roots : List ListNode) : List (ListNode × String) :=
  roots.zip (distinctConstants (roots.map sibling) none)

/-- Each root with its enumeration. -/
def homes (roots values : List ListNode) : List (ListNode × ListEnum) :=
  roots.zip (enumsOf values [] (named roots))

variable (roots values : List ListNode)

theorem map_fst_named : (named roots).map Prod.fst = roots :=
  List.map_fst_zip (by rw [Java.length_distinctConstants, List.length_map])

theorem map_snd_named : (named roots).map Prod.snd = distinctConstants (roots.map sibling) none :=
  List.map_snd_zip (by rw [Java.length_distinctConstants, List.length_map])

theorem length_enumsOf_named : (enumsOf values [] (named roots)).length = roots.length := by
  rw [length_enumsOf, ← List.length_map Prod.fst, map_fst_named]

theorem map_fst_homes : (homes roots values).map Prod.fst = roots :=
  List.map_fst_zip (length_enumsOf_named roots values).ge

theorem map_snd_homes : (homes roots values).map Prod.snd = enumsOf values [] (named roots) :=
  List.map_snd_zip (length_enumsOf_named roots values).le

/-- A home has the constant of its root. -/
theorem map_homes_eq_named :
    (homes roots values).map (fun h => (h.1, h.2.identifier)) = named roots := by
  refine List.zip_of_prod ?_ ?_
  · rw [List.map_map]
    exact map_fst_homes roots values
  · calc ((homes roots values).map fun h => (h.1, h.2.identifier)).map Prod.snd
        = ((homes roots values).map Prod.snd).map ListEnum.identifier := by
          rw [List.map_map, List.map_map]
          rfl
      _ = distinctConstants (roots.map sibling) none := by
          rw [map_snd_homes, map_identifier_enumsOf, map_snd_named]

/-- The enumeration of a root has the values of its id, unless an earlier root has that id. -/
theorem eq_enumOf_of_homes_split {before after : List (ListNode × ListEnum)} {root : ListNode}
    {e : ListEnum} (h : homes roots values = before ++ (root, e) :: after) :
    e = enumOf root e.identifier
      (if root.id ∈ before.map (fun h => h.1.id) then [] else valuesOf values root.id) := by
  have hzip : homes roots values
      = ((named roots).zip (enumsOf values [] (named roots))).map fun h => (h.1.1, h.2) := by
    conv_lhs => rw [homes, ← map_fst_named roots, List.zip_map_left]
    rw [map_fst_named]
    rfl
  rw [hzip] at h
  obtain ⟨before', rest, hsplit, rfl, hrest⟩ := List.map_eq_append_iff.mp h
  obtain ⟨⟨p, e'⟩, after', rfl, hp, rfl⟩ := List.map_eq_cons_iff.mp hrest
  obtain ⟨rfl, rfl⟩ := Prod.mk.inj hp
  have he := eq_enumOf_of_split hsplit
  have hid : e'.identifier = p.2 := by rw [he]; rfl
  rw [hid]
  simpa only [List.not_mem_nil, false_or, List.map_map, Function.comp_def] using he

/-! ## The lists of roots and values -/

/-- The values that are not removed and name one of the roots. -/
def survivingValues : List ListNode :=
  values.filter fun v => v.activity ≠ .removed && roots.any fun r => v.root = some r.id

/-- **What lists owe to their roots and values.** Each root has one enumeration, its home. The homes
in the order of their constants are the enumerations. A home begins with its root; then come the
surviving values that name the root, by name and id, if no root before has the same id. -/
structure Housed (roots values : List ListNode) (homes : List (ListNode × ListEnum)) (l : Lists) :
    Prop where
  roots_eq : homes.map Prod.fst = roots
  enums_perm : (homes.map Prod.snd).Perm l.enums
  ascending : (l.enums.map ListEnum.identifier).Pairwise (· < ·)
  head : ∀ h ∈ homes, h.2.items.head? = some (item h.1 h.2.identifier)
  logicalName : ∀ h ∈ homes, h.2.logicalName = h.1.logicalName
  ownValues : ∀ before root e after, homes = before ++ (root, e) :: after →
    root.id ∉ before.map (fun h => h.1.id) →
    (e.items.tail.map itemContent).Perm
      ((values.filter fun v => v.activity ≠ .removed && v.root = some root.id).map nodeContent)
  noValues : ∀ before root e after, homes = before ++ (root, e) :: after →
    root.id ∈ before.map (fun h => h.1.id) → e.items.tail = []
  allValues : (l.enums.flatMap fun e => e.items.tail.map itemContent).Perm
    ((survivingValues roots values).map nodeContent)
  sorted : ∀ e ∈ l.enums, (e.items.tail.map itemContent).Pairwise fun a b => a.key ≤ b.key
  distinct : ∀ e ∈ l.enums, (e.items.map ListItem.identifier).Nodup
  keys : ∀ name, name ∈ l.logicalNames.keys ↔ ∃ r ∈ roots, r.logicalName = some name
  lastNamed : ∀ before root e after name, homes = before ++ (root, e) :: after →
    root.logicalName = some name → (∀ h ∈ after, h.1.logicalName ≠ some name) →
    l.identifierOf? name = some e.identifier

/-- Every home is made of its root and sorted values. -/
theorem exists_eq_enumOf {h : ListNode × ListEnum} (hh : h ∈ homes roots values) :
    ∃ vs : List ListNode, h.2 = enumOf h.1 h.2.identifier vs
      ∧ vs.Pairwise fun a b => (sibling a).key ≤ (sibling b).key := by
  obtain ⟨before, after, hsplit⟩ := List.append_of_mem hh
  refine ⟨_, eq_enumOf_of_homes_split roots values hsplit, ?_⟩
  split
  next => exact List.Pairwise.nil
  next => exact pairwise_valuesOf values h.1.id

theorem ascending_identifiers :
    (((enumsOf values [] (named roots)).mergeSort fun a b => a.identifier ≤ b.identifier).map
      ListEnum.identifier).Pairwise (· < ·) := by
  -- sorting gives `≤`, and identifiers that differ make it `<`
  have hle := List.pairwise_map.mpr
    (pairwise_mergeSort_key ListEnum.identifier (enumsOf values [] (named roots)))
  have hnodup : (((enumsOf values [] (named roots)).mergeSort
      fun a b => a.identifier ≤ b.identifier).map ListEnum.identifier).Nodup := by
    rw [((List.mergeSort_perm ..).map _).nodup_iff, map_identifier_enumsOf, map_snd_named]
    exact Java.nodup_distinctConstants _ _
  refine (hle.and hnodup).imp fun {a b} hab => ?_
  exact Std.lt_of_le_of_ne hab.1 hab.2

/-- The identifiers of lists ascend. -/
theorem ascending_build (ignored : Table String Unit) :
    ((build roots values ignored).enums.map ListEnum.identifier).Pairwise (· < ·) :=
  ascending_identifiers (survivingRoots roots ignored) values

/-- The identifiers of lists are the constants of their roots. -/
theorem identifiers_build_perm (ignored : Table String Unit) :
    ((build roots values ignored).enums.map ListEnum.identifier).Perm
      (distinctConstants ((survivingRoots roots ignored).map sibling) none) := by
  rw [← map_snd_named, ← map_identifier_enumsOf values []]
  exact (List.mergeSort_perm ..).map _

/-- There is a list for every root that survives. -/
theorem length_enums_build (ignored : Table String Unit) :
    (build roots values ignored).enums.length = (survivingRoots roots ignored).length := by
  have hlength := (identifiers_build_perm roots values ignored).length_eq
  rwa [List.length_map, Java.length_distinctConstants, List.length_map] at hlength

theorem filter_below_named :
    values.filter (below [] (named roots)) = survivingValues roots values := by
  refine List.filter_congr fun v _ => ?_
  conv_rhs => rw [← map_fst_named roots, List.any_map]
  simp [below, Function.comp_def]

/-! ## Logical names -/

/-- The entries of the table of logical names. -/
def nameEntries (named : List (ListNode × String)) : List (String × String) :=
  named.filterMap fun p => p.1.logicalName.map (·, p.2)

/-- A home whose root has no logical name has no entry. -/
theorem nameEntries_eq :
    nameEntries (named roots)
      = (homes roots values).filterMap fun h => h.1.logicalName.map (·, h.2.identifier) := by
  rw [nameEntries, ← map_homes_eq_named roots values, List.filterMap_map]
  rfl

theorem mem_map_fst_nameEntries {name : String} :
    name ∈ (nameEntries (named roots)).map Prod.fst ↔ ∃ r ∈ roots, r.logicalName = some name := by
  conv_rhs => rw [← map_fst_named roots]
  simp only [nameEntries, List.mem_map, List.mem_filterMap, Option.map_eq_some_iff]
  constructor
  · intro hx
    obtain ⟨-, ⟨p, hp, name', hname, rfl⟩, rfl⟩ := hx
    exact ⟨p.1, ⟨p, hp, rfl⟩, hname⟩
  · intro hx
    obtain ⟨-, ⟨p, hp, rfl⟩, hname⟩ := hx
    exact ⟨(name, p.2), ⟨p, hp, name, hname, rfl⟩, rfl⟩

/-- A logical name leads to the home of the last root that has it. -/
theorem get?_nameEntries {before after : List (ListNode × ListEnum)} {root : ListNode}
    {e : ListEnum} {name : String} (h : homes roots values = before ++ (root, e) :: after)
    (hname : root.logicalName = some name) (hlast : ∀ h ∈ after, h.1.logicalName ≠ some name) :
    (Table.ofList (nameEntries (named roots))).get? name = some e.identifier := by
  -- the entries split where the homes do, and none after the split has the name
  rw [nameEntries_eq roots values, h, List.filterMap_append,
    List.filterMap_cons_some (b := (name, e.identifier)) (by rw [hname]; rfl)]
  refine Table.get?_ofList_of_split fun entry hentry heq => ?_
  obtain ⟨home, hhome, hsome⟩ := List.mem_filterMap.mp hentry
  obtain ⟨name', hname', rfl⟩ := Option.map_eq_some_iff.mp hsome
  exact hlast home hhome (heq ▸ hname')

/-- A logical name leads to one of the enumerations. -/
theorem exists_enum_of_get? {ignored : Table String Unit} {name identifier : String}
    (h : (build roots values ignored).logicalNames.get? name = some identifier) :
    ∃ e ∈ (build roots values ignored).enums, e.identifier = identifier := by
  have hmem : (name, identifier) ∈ nameEntries (named (survivingRoots roots ignored)) :=
    Table.mem_of_mem_ofList (Table.get?_eq_some_iff.mp h)
  obtain ⟨p, hp, hentry⟩ := List.mem_filterMap.mp hmem
  obtain ⟨name', -, heq⟩ := Option.map_eq_some_iff.mp hentry
  obtain ⟨-, rfl⟩ := Prod.mk.inj heq
  have hnamed : p.2 ∈ (named (survivingRoots roots ignored)).map Prod.snd := List.mem_map_of_mem hp
  rw [← map_identifier_enumsOf values []] at hnamed
  obtain ⟨e, he, heq⟩ := List.mem_map.mp hnamed
  exact ⟨e, List.mem_mergeSort.mpr he, heq⟩

/-- A logical name leads nowhere if every root that has it is removed or to be ignored. -/
theorem get?_logicalNames_build_eq_none_iff {ignored : Table String Unit} {name : String} :
    (build roots values ignored).logicalNames.get? name = none
      ↔ ∀ r ∈ roots, r.activity ≠ .removed → r.logicalName = some name →
        ignored.contains r.id = true := by
  -- a name is a key if a root that survives has it
  have hkeys : (∃ identifier, (build roots values ignored).logicalNames.get? name = some identifier)
      ↔ ∃ r ∈ survivingRoots roots ignored, r.logicalName = some name := by
    rw [← Table.mem_keys_iff, ← mem_map_fst_nameEntries]
    exact Table.mem_keys_ofList
  rw [Option.eq_none_iff_forall_ne_some, ← not_exists, hkeys]
  simp only [survivingRoots, List.mem_filter, Bool.and_eq_true, Bool.not_eq_true',
    decide_eq_true_eq, not_exists, not_and]
  constructor
  · intro h r hr hactive hname
    by_contra hkept
    exact h r ⟨hr, by simpa using hkept, hactive⟩ hname
  · intro h r hr hname
    obtain ⟨hmem, hkept, hactive⟩ := hr
    rw [h r hmem hactive hname] at hkept
    cases hkept

/-! ## The order of roots and values -/

section Order

variable {roots roots' values values' : List ListNode}

theorem nodup_siblings {l : List ListNode} (h : (l.map ListNode.id).Nodup) :
    (l.map sibling).Nodup := by
  refine List.Nodup.of_map Sibling.id ?_
  rwa [List.map_map]

/-- The values of a root are sorted by what tells them apart. -/
theorem valuesOf_eq_of_perm (h : values.Perm values') (hids : (values.map ListNode.id).Nodup)
    (id : String) : valuesOf values id = valuesOf values' id := by
  refine mergeSort_eq_of_perm (fun v => (sibling v).key) (h.filter _) ?_
  intro a ha b hb hab
  have hid : a.id = b.id := congrArg Sibling.id (Sibling.eq_of_key_eq hab)
  exact List.inj_on_of_nodup_map hids (List.mem_filter.mp ha).1 (List.mem_filter.mp hb).1 hid

/-- Roots with different ids all have the values of their ids. -/
theorem enumsOf_eq_map (values : List ListNode) {seen : List String}
    {named : List (ListNode × String)} (hseen : ∀ p ∈ named, p.1.id ∉ seen)
    (hids : (named.map fun p => p.1.id).Nodup) :
    enumsOf values seen named = named.map fun p => enumOf p.1 p.2 (valuesOf values p.1.id) := by
  induction named generalizing seen with
  | nil => rfl
  | cons p rest ih =>
    rw [List.map_cons, List.nodup_cons] at hids
    have hrest : ∀ q ∈ rest, q.1.id ∉ p.1.id :: seen := by
      intro q hq hmem
      rcases List.mem_cons.mp hmem with heq | hmem
      · exact hids.1 (List.mem_map.mpr ⟨q, hq, heq⟩)
      · exact hseen q (List.mem_cons_of_mem _ hq) hmem
    rw [enumsOf, if_neg (hseen p (List.mem_cons_self ..)), ih hrest hids.2, List.map_cons]

theorem named_perm (h : roots.Perm roots') (hids : (roots.map ListNode.id).Nodup) :
    (named roots).Perm (named roots') :=
  Java.zip_constants_perm_of_perm h (nodup_siblings hids) none

theorem map_id_named (roots : List ListNode) :
    (named roots).map (fun p => p.1.id) = roots.map ListNode.id := by
  conv_rhs => rw [← map_fst_named roots, List.map_map]
  rfl

/-- The enumerations, sorted by their distinct identifiers, do not depend on the order of roots and
values. -/
theorem mergeSort_enumsOf_eq_of_perm (hroots : roots.Perm roots')
    (hids : (roots.map ListNode.id).Nodup) (hvalues : values.Perm values')
    (hvalueIds : (values.map ListNode.id).Nodup) :
    (enumsOf values [] (named roots)).mergeSort (fun a b => a.identifier ≤ b.identifier)
      = (enumsOf values' [] (named roots')).mergeSort fun a b => a.identifier ≤ b.identifier := by
  have hids' : (roots'.map ListNode.id).Nodup := (hroots.map _).nodup_iff.mp hids
  -- no id is seen twice, so what was seen before a root does not matter
  have hmap : ∀ (vs rs : List ListNode), (rs.map ListNode.id).Nodup →
      enumsOf vs [] (named rs) = (named rs).map fun p => enumOf p.1 p.2 (valuesOf vs p.1.id) := by
    intro vs rs hrs
    exact enumsOf_eq_map vs (fun _ _ => List.not_mem_nil) (by rwa [map_id_named])
  refine mergeSort_eq_of_perm ListEnum.identifier ?_ ?_
  · rw [hmap values roots hids, hmap values' roots' hids']
    simp only [valuesOf_eq_of_perm hvalues hvalueIds]
    exact (named_perm hroots hids).map _
  · intro a ha b hb hab
    refine List.inj_on_of_nodup_map ?_ ha hb hab
    rw [map_identifier_enumsOf, map_snd_named]
    exact Java.nodup_distinctConstants _ _

/-- Each logical name leads to one root, so the order of the roots has no meaning. -/
theorem ofList_nameEntries_eq_of_perm (hroots : roots.Perm roots')
    (hids : (roots.map ListNode.id).Nodup) (hnames : (roots.filterMap ListNode.logicalName).Nodup) :
    Table.ofList (nameEntries (named roots)) = Table.ofList (nameEntries (named roots')) := by
  refine Table.ofList_eq_of_perm ((named_perm hroots hids).filterMap _) ?_
  have hkeys : (nameEntries (named roots)).map Prod.fst = roots.filterMap ListNode.logicalName := by
    conv_rhs => rw [← map_fst_named roots, List.filterMap_map]
    unfold nameEntries
    rw [List.map_filterMap]
    refine List.filterMap_congr fun p _ => ?_
    rw [Option.map_map]
    exact Option.map_id' ..
  rwa [hkeys]

/-- **Lists do not depend on the order in which nodes are listed**, if these can be told apart. -/
theorem build_eq_of_perm (ignored : Table String Unit) (hroots : roots.Perm roots')
    (hids : (roots.map ListNode.id).Nodup) (hnames : (roots.filterMap ListNode.logicalName).Nodup)
    (hvalues : values.Perm values') (hvalueIds : (values.map ListNode.id).Nodup) :
    build roots values ignored = build roots' values' ignored := by
  have hsub : (survivingRoots roots ignored).Sublist roots := List.filter_sublist
  have hperm : (survivingRoots roots ignored).Perm (survivingRoots roots' ignored) :=
    hroots.filter _
  have hids' := hids.sublist (hsub.map ListNode.id)
  have hnames' := hnames.sublist (hsub.filterMap ListNode.logicalName)
  show Lists.mk _ (Table.ofList (nameEntries (named _))) = Lists.mk _ _
  rw [ofList_nameEntries_eq_of_perm hperm hids' hnames']
  exact congrArg (Lists.mk · _) (mergeSort_enumsOf_eq_of_perm hperm hids' hvalues hvalueIds)

end Order

/-! ## The main theorem -/

/-- The roots that survive are those that are neither to be ignored nor removed. -/
theorem survivingRoots_eq (ignored : Table String Unit) :
    survivingRoots roots ignored
      = roots.filter fun r => r.id ∉ ignored.keys ∧ r.activity ≠ .removed := by
  refine List.filter_congr fun r _ => ?_
  rw [Bool.eq_iff_iff, Bool.and_eq_true, Bool.not_eq_true', decide_eq_true_iff, decide_eq_true_iff,
    ← Bool.not_eq_true, Table.contains_iff]

/-- **Lists lose nothing and make up nothing** of the roots that are neither to be ignored nor
removed. -/
theorem build_housed (ignored : Table String Unit) :
    ∃ homes, Housed (roots.filter fun r => r.id ∉ ignored.keys ∧ r.activity ≠ .removed) values homes
      (build roots values ignored) := by
  rw [← survivingRoots_eq]
  generalize hroots : survivingRoots roots ignored = surviving
  have hbuild : build roots values ignored
      = { enums := (enumsOf values [] (named surviving)).mergeSort
            fun a b => a.identifier ≤ b.identifier
          logicalNames := Table.ofList (nameEntries (named surviving)) } := by
    rw [← hroots]
    rfl
  rw [hbuild]
  have hsorted := List.mergeSort_perm (enumsOf values [] (named surviving))
    fun a b => a.identifier ≤ b.identifier
  -- sorting moves enumerations, so each of them is still the home of a root
  have hhome : ∀ e ∈ (enumsOf values [] (named surviving)).mergeSort
      (fun a b => a.identifier ≤ b.identifier), ∃ h ∈ homes surviving values, h.2 = e := by
    intro e he
    have hmem := hsorted.mem_iff.mp he
    rw [← map_snd_homes] at hmem
    exact List.mem_map.mp hmem
  refine ⟨homes surviving values, ?_⟩
  constructor
  case roots_eq => exact map_fst_homes surviving values
  case enums_perm => exact map_snd_homes surviving values ▸ hsorted.symm
  case ascending => exact ascending_identifiers surviving values
  case head =>
    intro h hh
    obtain ⟨vs, he, -⟩ := exists_eq_enumOf surviving values hh
    rw [he]
    rfl
  case logicalName =>
    intro h hh
    obtain ⟨vs, he, -⟩ := exists_eq_enumOf surviving values hh
    rw [he]
    rfl
  case ownValues =>
    intro before root e after h hfirst
    have he := eq_enumOf_of_homes_split surviving values h
    rw [if_neg hfirst] at he
    rw [he, content_tail_enumOf]
    exact (valuesOf_perm values root.id).map _
  case noValues =>
    intro before root e after h hlater
    have he := eq_enumOf_of_homes_split surviving values h
    rw [if_pos hlater] at he
    rw [he]
    rfl
  case allValues =>
    rw [← filter_below_named]
    exact (hsorted.flatMap_right _).trans (values_enumsOf_perm values [] (named surviving))
  case sorted =>
    intro e he
    obtain ⟨h, hh, rfl⟩ := hhome e he
    obtain ⟨vs, he, hvs⟩ := exists_eq_enumOf surviving values hh
    rw [he, content_tail_enumOf]
    exact List.pairwise_map.mpr hvs
  case distinct =>
    intro e he
    obtain ⟨h, hh, rfl⟩ := hhome e he
    obtain ⟨vs, he, -⟩ := exists_eq_enumOf surviving values hh
    rw [he]
    exact nodup_identifiers_enumOf _ _ _
  case keys =>
    intro name
    rw [Table.mem_keys_ofList, mem_map_fst_nameEntries]
  case lastNamed =>
    intro before root e after name h hname hlast
    exact get?_nameEntries surviving values h hname hlast

end TypedEntities.Lists
