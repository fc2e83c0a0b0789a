import TypedEntities.Metadata.Codec
import TypedEntities.Proofs.Json.Members

/-!
# What a server may add

A server lists the members of its objects in any order, and a newer one adds members, features and
kinds of field that have no meaning here. None of this is in the way of reading its metadata:

> `tolerant`: other orders and members with unknown keys leave what is read as it is, an unknown
> feature leaves all that the other features say, and an unknown kind of field is read as such.

An edit stands at any depth. It is followed from the outermost tree inwards: a record is read from
the slots of its fields, so an edit either keeps all its slots (`Shape.decode_congr`) or goes on in
one of them (`Shape.decode_part`). Only a feature is different. All of it is a value before its
name is looked up, and so a member that is not read must have a value all the same: a number that
is out of range makes the entity type unreadable (`not_tolerant_unreadable`).
-/

namespace TypedEntities.Metadata

open TypedEntities.Json TypedEntities.Json.Decoder

/-! ## Shapes -/

/-- What a tree is read as. -/
inductive Shape
  | entity
  | field
  | feature
  | reference
  | target
  | listNode
  | phase
  /-- A list of things of one shape. -/
  | list (item : Shape)

namespace Shape

def Value : Shape → Type
  | entity => Entity
  | field => Field
  | feature => Feature
  | reference => Option ReferenceData
  | target => Target
  | listNode => ListNode
  | phase => Phase
  | list item => List item.Value

def decode : (s : Shape) → Decoder s.Value
  | entity => Entity.decode
  | field => Field.decode
  | feature => Feature.decode
  | reference => nullable ReferenceData.decode
  | target => Target.decode
  | listNode => ListNode.decode
  | phase => Phase.decode
  | list item => Decoder.list item.decode

/-- The fields of a record in their order, with the shape of those that hold records themselves.
What a feature has depends on its name. -/
def fields : Shape → List (String × Option Shape)
  | entity =>
    [("name", none), ("label", none), ("features", some (list feature)),
      ("fields", some (list field))]
  | field =>
    [("name", none), ("label", none), ("field_type", none), ("required", none), ("sortable", none),
      ("editable", none), ("field_type_data", some reference)]
  | reference => [("multiple", none), ("targets", some (list target))]
  | target => [("type", none), ("logical_name", none)]
  | listNode =>
    [("id", none), ("name", none), ("logical_name", none), ("activity_level", none),
      ("list_root", none)]
  | phase => [("id", none), ("name", none), ("entity", none)]
  | feature | list _ => []

def keys (s : Shape) : List String := s.fields.map Prod.fst

/-- How many arrays and objects stand inside each other in what is read. -/
def depth : Shape → Nat
  | target | listNode | phase => 1
  | feature => 2
  | reference => 3
  | field => 4
  | entity => 6
  | list item => item.depth + 1

end Shape

/-- The names of the features that have a meaning here. -/
def Feature.tags : List String := ["rest", "subtype_of", "subtypes"]

/-- The keys of a feature with the given name, besides the name. -/
def Feature.keys : String → List String
  | "rest" => ["url", "methods"]
  | "subtype_of" => ["type"]
  | "subtypes" => ["types"]
  | _ => []

/-! ## Edits -/

/-- An edit that has no meaning here. A member with an unknown key may be added to any record, and
to a feature if its value fits; the members of a record may be reordered; and all this may happen
in a part of a record, which is given as a member or, in a record that is a list, at its place. -/
inductive Edit (fits : Tree → Prop) : Shape → Tree → Tree → Prop
  | reorder {s : Shape} {members members' : List (Option String × Tree)}
      (h : members.Perm members') : Edit fits s (.object members) (.object members')
  | insert {s : Shape} {before after : List (Option String × Tree)} {key : String} (t : Tree)
      (hs : s ≠ .feature) (hkey : key ∉ s.keys) :
      Edit fits s (.object (before ++ after)) (.object (before ++ (some key, t) :: after))
  | insertFeature {before after : List (Option String × Tree)} {tag key : String} {t : Tree}
      (htag : (some "name", .text (some tag)) ∈ before ++ after)
      (hkey : key ∉ "name" :: Feature.keys tag) (hfits : fits t) :
      Edit fits .feature (.object (before ++ after)) (.object (before ++ (some key, t) :: after))
  | member {s part : Shape} {before after : List (Option String × Tree)} {key : String}
      {t t' : Tree} (hpart : (key, some part) ∈ s.fields) (h : Edit fits part t t') :
      Edit fits s (.object (before ++ (some key, t) :: after))
        (.object (before ++ (some key, t') :: after))
  | place {s part : Shape} {before after : List Tree} {key : String} {t t' : Tree}
      (hpart : s.fields[before.length]? = some (key, some part)) (h : Edit fits part t t') :
      Edit fits s (.array (before ++ t :: after)) (.array (before ++ t' :: after))
  | item {s : Shape} {before after : List Tree} {t t' : Tree} (h : Edit fits s t t') :
      Edit fits (.list s) (.array (before ++ t :: after)) (.array (before ++ t' :: after))

/-- Any number of edits. -/
def Edits (fits : Tree → Prop) (s : Shape) : Tree → Tree → Prop :=
  Relation.ReflTransGen (Edit fits s)

/-- Another tag for the kind of a field. -/
inductive Retagged (tag : String) : Tree → Tree → Prop
  | member {before after : List (Option String × Tree)} {t : Tree} :
      Retagged tag (.object (before ++ (some "field_type", t) :: after))
        (.object (before ++ (some "field_type", .text (some tag)) :: after))
  | place {before after : List Tree} {t : Tree} (h : before.length = 2) :
      Retagged tag (.array (before ++ t :: after)) (.array (before ++ .text (some tag) :: after))

/-- A tree of moderate depth whose strings are texts and whose numbers are in range. -/
def Moderate (t : Tree) : Prop := t.depth ≤ 100 ∧ t.Readable

instance (t : Tree) : Decidable (Moderate t) := inferInstanceAs (Decidable (_ ∧ _))

/-! ## What a record is read from -/

theorem Entity.decode_eq_some {levels : Nat} {t : Tree} {e : Entity} :
    Entity.decode levels t = some e ↔ ∃ name label features fields,
      slots Shape.entity.keys levels t = some [name, label, features, fields]
        ∧ required .text (levels - 1) name = some e.name
        ∧ withDefault "" .text (levels - 1) label = some e.label
        ∧ withDefault [] (.list Feature.decode) (levels - 1) features = some e.features
        ∧ withDefault [] (.list Field.decode) (levels - 1) fields = some e.fields := by
  constructor
  · intro h
    obtain ⟨parts, hparts, h⟩ := Option.bind_eq_some_iff.mp h
    split at h
    next name label features fields =>
      obtain ⟨_, hname, h⟩ := Option.bind_eq_some_iff.mp h
      obtain ⟨_, hlabel, h⟩ := Option.bind_eq_some_iff.mp h
      obtain ⟨_, hfeatures, h⟩ := Option.bind_eq_some_iff.mp h
      obtain ⟨_, hfields, h⟩ := Option.bind_eq_some_iff.mp h
      cases h
      exact ⟨_, _, _, _, hparts, hname, hlabel, hfeatures, hfields⟩
    next => cases h
  · rintro ⟨name, label, features, fields, hparts, hname, hlabel, hfeatures, hfields⟩
    refine Option.bind_eq_some_iff.mpr ⟨_, hparts, ?_⟩
    simp only [hname, hlabel, hfeatures, hfields, Option.bind_eq_bind, Option.bind_some,
      Option.pure_def]

theorem ReferenceData.decode_eq_some {levels : Nat} {t : Tree} {d : ReferenceData} :
    ReferenceData.decode levels t = some d ↔ ∃ multiple targets,
      slots Shape.reference.keys levels t = some [multiple, targets]
        ∧ withDefault false .bool (levels - 1) multiple = some d.multiple
        ∧ withDefault [] (.list Target.decode) (levels - 1) targets = some d.targets := by
  constructor
  · intro h
    obtain ⟨parts, hparts, h⟩ := Option.bind_eq_some_iff.mp h
    split at h
    next multiple targets =>
      obtain ⟨_, hmultiple, h⟩ := Option.bind_eq_some_iff.mp h
      obtain ⟨_, htargets, h⟩ := Option.bind_eq_some_iff.mp h
      cases h
      exact ⟨_, _, hparts, hmultiple, htargets⟩
    next => cases h
  · rintro ⟨multiple, targets, hparts, hmultiple, htargets⟩
    refine Option.bind_eq_some_iff.mpr ⟨_, hparts, ?_⟩
    simp only [hmultiple, htargets, Option.bind_eq_bind, Option.bind_some, Option.pure_def]

theorem Field.decode_eq_some {levels : Nat} {t : Tree} {f : Field} :
    Field.decode levels t = some f
      ↔ ∃ name label fieldType required sortable editable reference,
        slots Shape.field.keys levels t
            = some [name, label, fieldType, required, sortable, editable, reference]
          ∧ Decoder.required .text (levels - 1) name = some f.name
          ∧ withDefault "" .text (levels - 1) label = some f.label
          ∧ Decoder.required FieldType.decode (levels - 1) fieldType = some f.fieldType
          ∧ withDefault false .bool (levels - 1) required = some f.required
          ∧ withDefault false .bool (levels - 1) sortable = some f.sortable
          ∧ withDefault true .bool (levels - 1) editable = some f.editable
          ∧ withDefault none (nullable ReferenceData.decode) (levels - 1) reference
            = some f.reference := by
  constructor
  · intro h
    obtain ⟨parts, hparts, h⟩ := Option.bind_eq_some_iff.mp h
    split at h
    next name label fieldType required sortable editable reference =>
      -- the fields are read one after the other, and all must succeed
      obtain ⟨_, hname, h⟩ := Option.bind_eq_some_iff.mp h
      obtain ⟨_, hlabel, h⟩ := Option.bind_eq_some_iff.mp h
      obtain ⟨_, hfieldType, h⟩ := Option.bind_eq_some_iff.mp h
      obtain ⟨_, hrequired, h⟩ := Option.bind_eq_some_iff.mp h
      obtain ⟨_, hsortable, h⟩ := Option.bind_eq_some_iff.mp h
      obtain ⟨_, heditable, h⟩ := Option.bind_eq_some_iff.mp h
      obtain ⟨_, hreference, h⟩ := Option.bind_eq_some_iff.mp h
      cases h
      exact ⟨_, _, _, _, _, _, _, hparts, hname, hlabel, hfieldType, hrequired, hsortable,
        heditable, hreference⟩
    next => cases h
  · rintro ⟨name, label, fieldType, required, sortable, editable, reference, hparts, hname, hlabel,
      hfieldType, hrequired, hsortable, heditable, hreference⟩
    refine Option.bind_eq_some_iff.mpr ⟨_, hparts, ?_⟩
    simp only [hname, hlabel, hfieldType, hrequired, hsortable, heditable, hreference,
      Option.bind_eq_bind, Option.bind_some, Option.pure_def]

namespace Shape

variable {s part : Shape} {levels : Nat} {t t' : Tree}

theorem nodup_keys (s : Shape) : s.keys.Nodup := by
  cases s <;> simp [keys, fields]

/-- A record is read from the slots of its fields. -/
theorem decode_congr {members members' : List (Option String × Tree)} (hs : s ≠ .feature)
    (h : slots s.keys levels (.object members) = slots s.keys levels (.object members')) :
    s.decode levels (.object members) = s.decode levels (.object members') := by
  cases s with
  | feature => exact absurd rfl hs
  | list item => rfl
  | reference => exact congrArg (fun parts => (Option.bind parts _).map some) h
  | entity | field | target | listNode | phase =>
    exact congrArg (fun parts => Option.bind parts _) h

/-- A record whose parts differ in one slot, which is read as before, is read as before. -/
theorem decode_part {i : Nat} {key : String} {x x' : Tree} {v : s.Value}
    (hpart : s.fields[i]? = some (key, some part))
    (hslots : ∀ parts, slots s.keys levels t = some parts →
      parts[i]? = some (some x) ∧ slots s.keys levels t' = some (parts.set i (some x')))
    (ht : t ≠ .null) (ht' : t' ≠ .null)
    (hread : ∀ w, part.decode (levels - 1) x = some w → part.decode (levels - 1) x' = some w)
    (hv : s.decode levels t = some v) : s.decode levels t' = some v := by
  -- by the slot of the part; where there are no parts there is no such slot
  cases s with
  | entity =>
    obtain ⟨name, label, features, fields, hparts, hname, hlabel, hfeatures, hfields⟩ :=
      Entity.decode_eq_some.mp hv
    obtain ⟨hx, hparts'⟩ := hslots _ hparts
    rcases i with _ | _ | _ | _ | i <;> cases hpart <;> cases hx
    · exact Entity.decode_eq_some.mpr
        ⟨_, _, _, _, hparts', hname, hlabel, hread _ hfeatures, hfields⟩
    · exact Entity.decode_eq_some.mpr
        ⟨_, _, _, _, hparts', hname, hlabel, hfeatures, hread _ hfields⟩
  | field =>
    obtain ⟨name, label, fieldType, required, sortable, editable, reference, hparts, hname, hlabel,
      hfieldType, hrequired, hsortable, heditable, hreference⟩ := Field.decode_eq_some.mp hv
    obtain ⟨hx, hparts'⟩ := hslots _ hparts
    rcases i with _ | _ | _ | _ | _ | _ | _ | i <;> cases hpart
    cases hx
    exact Field.decode_eq_some.mpr ⟨_, _, _, _, _, _, _, hparts', hname, hlabel, hfieldType,
      hrequired, hsortable, heditable, hread _ hreference⟩
  | reference =>
    obtain ⟨d, rfl, hd⟩ := (nullable_eq_some ht).mp hv
    obtain ⟨multiple, targets, hparts, hmultiple, htargets⟩ := ReferenceData.decode_eq_some.mp hd
    obtain ⟨hx, hparts'⟩ := hslots _ hparts
    rcases i with _ | _ | i <;> cases hpart
    cases hx
    exact (nullable_eq_some ht').mpr ⟨d, rfl, ReferenceData.decode_eq_some.mpr
      ⟨_, _, hparts', hmultiple, hread _ htargets⟩⟩
  | target => rcases i with _ | _ | i <;> cases hpart
  | listNode => rcases i with _ | _ | _ | _ | _ | i <;> cases hpart
  | phase => rcases i with _ | _ | _ | i <;> cases hpart
  | feature | list item => cases hpart

theorem getElem?_keys {i : Nat} {key : String} (h : s.fields[i]? = some (key, some part)) :
    s.keys[i]? = some key := by
  rw [keys, List.getElem?_map, h]
  rfl

/-- A record is read as before if the tree of a part is, given as a member ... -/
theorem decode_member {before after : List (Option String × Tree)} {key : String} {v : s.Value}
    (hpart : (key, some part) ∈ s.fields)
    (hread : ∀ w, part.decode (levels - 1) t = some w → part.decode (levels - 1) t' = some w)
    (hv : s.decode levels (.object (before ++ (some key, t) :: after)) = some v) :
    s.decode levels (.object (before ++ (some key, t') :: after)) = some v := by
  obtain ⟨i, hi⟩ := List.mem_iff_getElem?.mp hpart
  refine decode_part hi (fun parts hparts => ?_) (by simp) (by simp) hread hv
  obtain ⟨hslot, hset⟩ := slots_member s.nodup_keys (getElem?_keys hi) hparts
  exact ⟨hslot, hset t'⟩

/-- ... or at its place. -/
theorem decode_place {before after : List Tree} {key : String} {v : s.Value}
    (hpart : s.fields[before.length]? = some (key, some part))
    (hread : ∀ w, part.decode (levels - 1) t = some w → part.decode (levels - 1) t' = some w)
    (hv : s.decode levels (.array (before ++ t :: after)) = some v) :
    s.decode levels (.array (before ++ t' :: after)) = some v := by
  refine decode_part hpart (fun parts hparts => ?_) (by simp) (by simp) hread hv
  obtain ⟨hslot, hset⟩ := slots_item hparts
  exact ⟨hslot, hset t'⟩

/-- A part stands one level deeper. -/
theorem depth_part {key : String} (h : (key, some part) ∈ s.fields) : part.depth < s.depth := by
  cases s with
  | entity =>
    simp only [fields, List.mem_cons, Prod.mk.injEq, Option.some.injEq, reduceCtorEq, and_false,
      List.not_mem_nil, or_false, false_or] at h
    rcases h with ⟨-, rfl⟩ | ⟨-, rfl⟩ <;> decide
  | field | reference =>
    simp only [fields, List.mem_cons, Prod.mk.injEq, Option.some.injEq, reduceCtorEq, and_false,
      List.not_mem_nil, or_false, false_or] at h
    rcases h with ⟨-, rfl⟩
    decide
  | feature | target | listNode | phase | list item =>
    simp [fields] at h

end Shape

/-! ## What a feature is read from -/

namespace Feature

variable {levels : Nat} {tag : String} {members members' : List (Option String × Tree)}
  {f : Feature}

/-- A feature with a given name is read from the slots of its keys. -/
theorem ofMembers_congr
    (h : slotsOfMembers (keys tag) members = slotsOfMembers (keys tag) members') :
    ofMembers tag levels members = ofMembers tag levels members' := by
  unfold ofMembers
  split
  · exact congrArg (fun parts => Option.bind parts _) h
  · exact congrArg (fun parts => Option.bind parts _) h
  · exact congrArg (fun parts => Option.bind parts _) h
  · rfl

/-- A feature is named by the only member with this key, and read from the other members. -/
theorem decode_object_eq_some :
    decode levels (.object members) = some f
      ↔ ((Tree.object members).value? levels).isSome ∧ ∃ tag,
        (members.filter fun m => m.1 = some "name") = [(some "name", .text (some tag))]
          ∧ ofMembers tag (levels - 1) (members.filter fun m => m.1 ≠ some "name") = some f := by
  rw [decode, Option.ite_none_left_eq_some, Option.isNone_iff_eq_none, ← ne_eq,
    ← Option.isSome_iff_ne_none]
  refine and_congr_right fun _ => ⟨fun h => ?_, fun h => ?_⟩
  · split at h
    next key tag hname =>
      have hkey : (key, Tree.text (some tag)) ∈ members.filter fun m => m.1 = some "name" := by
        rw [hname]
        exact List.mem_singleton_self _
      obtain rfl : key = some "name" := by simpa using (List.mem_filter.mp hkey).2
      exact ⟨tag, hname, h⟩
    next => cases h
  · obtain ⟨tag, hname, h⟩ := h
    simp only [hname]
    exact h

/-- A feature does not depend on the order of its members. -/
theorem decode_reorder (h : members.Perm members')
    (hf : decode levels (.object members) = some f) :
    decode levels (.object members') = some f := by
  obtain ⟨hvalue, tag, hname, hf⟩ := decode_object_eq_some.mp hf
  refine decode_object_eq_some.mpr ⟨?_, tag, ?_, ?_⟩
  · rw [isSome_value?_object_iff] at hvalue ⊢
    simpa only [h.mem_iff] using hvalue
  · have hfilter := h.filter fun m => m.1 = some "name"
    rw [hname, List.singleton_perm] at hfilter
    exact hfilter.symm
  · rw [← hf]
    exact (ofMembers_congr (slotsOfMembers_reorder (h.filter _))).symm

/-- A member that has a value and no meaning here does not change a feature. -/
theorem decode_insert {before after : List (Option String × Tree)} {key : String} {t : Tree}
    (htag : (some "name", .text (some tag)) ∈ before ++ after) (hkey : key ∉ "name" :: keys tag)
    (ht : (t.value? (levels - 1)).isSome)
    (hf : decode levels (.object (before ++ after)) = some f) :
    decode levels (.object (before ++ (some key, t) :: after)) = some f := by
  obtain ⟨hkeyname, hkeytag⟩ := List.ne_and_not_mem_of_not_mem_cons hkey
  obtain ⟨hvalue, tag', hname, hf⟩ := decode_object_eq_some.mp hf
  obtain rfl : tag = tag' := by
    -- the tag that is read is the only one, so it is the given one
    have hmem : (some "name", .text (some tag)) ∈
        (before ++ after).filter fun m => m.1 = some "name" :=
      List.mem_filter.mpr ⟨htag, by simp⟩
    rw [hname] at hmem
    simpa using hmem
  have hother : some key ≠ some "name" := fun h => hkeyname (Option.some.inj h)
  refine decode_object_eq_some.mpr ⟨?_, tag, ?_, ?_⟩
  · rw [isSome_value?_object_iff, List.forall_mem_append, List.forall_mem_cons] at *
    exact ⟨hvalue.1, hvalue.2.1, ⟨rfl, ht⟩, hvalue.2.2⟩
  · rw [List.filter_append, List.filter_cons_of_neg (by simpa using hkeyname),
      ← List.filter_append, hname]
  · rw [List.filter_append, List.filter_cons_of_pos (by simpa using hkeyname), ← hf,
      List.filter_append]
    exact ofMembers_congr (slotsOfMembers_insert hkeytag t)

/-- A feature whose name has no meaning here is read as such, whatever it has besides. -/
theorem decode_unknown (hnodup : (members.map Prod.fst).Nodup)
    (hname : (some "name", .text (some tag)) ∈ members) (htag : tag ∉ tags)
    (hvalue : ((Tree.object members).value? levels).isSome) :
    decode levels (.object members) = some .other := by
  refine decode_object_eq_some.mpr ⟨hvalue, tag, ?_, ?_⟩
  · exact filter_key_eq_singleton hnodup hname
  · simp only [tags, List.mem_cons, List.not_mem_nil, or_false, not_or] at htag
    unfold ofMembers
    split
    next => exact absurd rfl htag.1
    next => exact absurd rfl htag.2.1
    next => exact absurd rfl htag.2.2
    next => rfl

end Feature

/-! ## One edit, and any number of them -/

/-- A moderate tree has a value where enough levels may follow. -/
theorem Moderate.isSome_value? {t : Tree} {levels : Nat} (h : Moderate t) (hlevels : 100 ≤ levels) :
    (t.value? levels).isSome :=
  (isSome_value?_iff levels t).mpr ⟨h.1.trans hlevels, h.2⟩

/-- One edit does not change what is read. -/
theorem Edit.decode {s : Shape} {t t' : Tree} (h : Edit Moderate s t t') {levels : Nat}
    (hlevels : s.depth + 100 ≤ levels) {v : s.Value} (hv : s.decode levels t = some v) :
    s.decode levels t' = some v := by
  -- the levels that are left shrink with the shape on the way to the edit
  induction h generalizing levels with
  | @reorder s members members' h =>
    by_cases hs : s = .feature
    · subst hs
      exact Feature.decode_reorder h hv
    · rw [← Shape.decode_congr hs (slots_reorder h)]
      exact hv
  | insert t hs hkey =>
    rw [Shape.decode_congr hs (slots_insert hkey t)]
    exact hv
  | insertFeature htag hkey hfits =>
    rw [Shape.depth] at hlevels
    exact Feature.decode_insert htag hkey (hfits.isSome_value? (by omega)) hv
  | member hpart h ih =>
    have hdepth := Shape.depth_part hpart
    exact Shape.decode_member hpart (fun w => ih (by omega)) hv
  | place hpart h ih =>
    have hdepth := Shape.depth_part (List.mem_of_getElem? hpart)
    exact Shape.decode_place hpart (fun w => ih (by omega)) hv
  | item h ih =>
    obtain ⟨us, x, ws, rfl, -, hx, hset⟩ := list_item hv
    rw [Shape.depth] at hlevels
    exact hset _ x (ih (by omega) hx)

/-- Any number of edits do not change what is read. -/
theorem Edits.decode {s : Shape} {t t' : Tree} (h : Edits Moderate s t t') {levels : Nat}
    (hlevels : s.depth + 100 ≤ levels) {v : s.Value} (hv : s.decode levels t = some v) :
    s.decode levels t' = some v := by
  induction h with
  | refl => exact hv
  | tail _ hedit ih => exact hedit.decode hlevels ih

/-! ## An unknown feature -/

/-- A feature without a meaning leaves all that the other features say. -/
theorem Entity.insert_other {e e' : Entity} {before after : List Feature}
    (h : e.features = before ++ after) (h' : e'.features = before ++ .other :: after) :
    e'.rest? = e.rest? ∧ e'.parent? = e.parent? ∧ e'.declaredSubtypes = e.declaredSubtypes := by
  simp only [Entity.rest?, Entity.parent?, Entity.declaredSubtypes, h, h', List.findSome?_append,
    List.findSome?_cons, and_self]

/-- One more feature without a meaning is read as such. -/
theorem Entity.decode_insert_feature {levels : Nat} {before after : List (Option String × Tree)}
    {given later : List Tree} {t : Tree} {e : Entity}
    (ht : Feature.decode (levels - 2) t = some .other)
    (he : Entity.decode levels
      (.object (before ++ (some "features", .array (given ++ later)) :: after)) = some e) :
    ∃ us ws, e.features = us ++ ws ∧ us.length = given.length ∧ Entity.decode levels
      (.object (before ++ (some "features", .array (given ++ t :: later)) :: after))
        = some { e with features := us ++ .other :: ws } := by
  obtain ⟨name, label, features, fields, hparts, hname, hlabel, hfeatures, hfields⟩ :=
    Entity.decode_eq_some.mp he
  obtain ⟨hslot, hset⟩ :=
    slots_member (i := 2) Shape.entity.nodup_keys rfl hparts
  cases hslot
  obtain ⟨us, ws, hlist, hlength, hinsert⟩ := list_insert hfeatures
  exact ⟨us, ws, hlist, hlength, Entity.decode_eq_some.mpr
    ⟨_, _, _, _, hset _, hname, hlabel, hinsert t .other ht, hfields⟩⟩

/-! ## An unknown kind of field -/

theorem FieldType.ofTag_unknown {tag : String} (h : ∀ k : FieldType, k ≠ .unknown → k.tag ≠ tag) :
    FieldType.ofTag tag = .unknown := by
  unfold FieldType.ofTag
  split
  next => exact absurd rfl (h .string (by decide))
  next => exact absurd rfl (h .memo (by decide))
  next => exact absurd rfl (h .integer (by decide))
  next => exact absurd rfl (h .float (by decide))
  next => exact absurd rfl (h .boolean (by decide))
  next => exact absurd rfl (h .date (by decide))
  next => exact absurd rfl (h .dateTime (by decide))
  next => exact absurd rfl (h .reference (by decide))
  next => exact absurd rfl (h .object (by decide))
  next => rfl

/-- Another tag changes the kind of a field only. -/
theorem Retagged.decode {tag : String} {t t' : Tree} (h : Retagged tag t t') {levels : Nat}
    {f : Field} (hf : Field.decode levels t = some f) :
    Field.decode levels t' = some { f with fieldType := FieldType.ofTag tag } := by
  obtain ⟨name, label, fieldType, required, sortable, editable, reference, hparts, hname, hlabel,
    hfieldType, hrequired, hsortable, heditable, hreference⟩ := Field.decode_eq_some.mp hf
  have hset : slots Shape.field.keys levels t' = some [name, label, some (.text (some tag)),
      required, sortable, editable, reference] := by
    cases h with
    | member => exact (slots_member (i := 2) Shape.field.nodup_keys rfl hparts).2 _
    | place hplace =>
      have := (slots_item hparts).2 (.text (some tag))
      rw [hplace] at this
      exact this
  exact Field.decode_eq_some.mpr ⟨_, _, _, _, _, _, _, hset, hname, hlabel, rfl, hrequired,
    hsortable, heditable, hreference⟩

/-- Another tag in a field of an entity type changes the kind of this field only. -/
theorem Retagged.decode_entity {tag : String} {t t' : Tree} (h : Retagged tag t t') {levels : Nat}
    {before after : List (Option String × Tree)} {given later : List Tree} {e : Entity}
    (he : Entity.decode levels
      (.object (before ++ (some "fields", .array (given ++ t :: later)) :: after)) = some e) :
    ∃ us f ws, e.fields = us ++ f :: ws ∧ us.length = given.length ∧ Entity.decode levels
      (.object (before ++ (some "fields", .array (given ++ t' :: later)) :: after))
        = some { e with fields := us ++ { f with fieldType := FieldType.ofTag tag } :: ws } := by
  obtain ⟨name, label, features, fields, hparts, hname, hlabel, hfeatures, hfields⟩ :=
    Entity.decode_eq_some.mp he
  obtain ⟨hslot, hset⟩ := slots_member (i := 3) Shape.entity.nodup_keys rfl hparts
  cases hslot
  obtain ⟨us, f, ws, hlist, hlength, hf, hitem⟩ := list_item hfields
  exact ⟨us, f, ws, hlist, hlength, Entity.decode_eq_some.mpr
    ⟨_, _, _, _, hset _, hname, hlabel, hfeatures, hitem t' _ (h.decode hf)⟩⟩

/-! ## The guarantee -/

/-- What a server may do without harm, if what it adds to features fits. -/
structure Tolerant (fits : Tree → Prop) : Prop where
  entity {t t' : Tree} {e : Entity} : Edits fits .entity t t' →
    Entity.decode maxLevels t = some e → Entity.decode maxLevels t' = some e
  field {t t' : Tree} {f : Field} : Edits fits .field t t' →
    Field.decode maxLevels t = some f → Field.decode maxLevels t' = some f
  listNode {t t' : Tree} {n : ListNode} : Edits fits .listNode t t' →
    ListNode.decode maxLevels t = some n → ListNode.decode maxLevels t' = some n
  phase {t t' : Tree} {p : Phase} : Edits fits .phase t t' →
    Phase.decode maxLevels t = some p → Phase.decode maxLevels t' = some p
  /-- A feature with an unknown name may be added at any place. -/
  feature {before after members : List (Option String × Tree)} {given later : List Tree}
    {tag : String} {e : Entity} : (members.map Prod.fst).Nodup →
    (some "name", .text (some tag)) ∈ members → tag ∉ Feature.tags → fits (.object members) →
    Entity.decode maxLevels
      (.object (before ++ (some "features", .array (given ++ later)) :: after)) = some e →
    ∃ features,
      Entity.decode maxLevels (.object
          (before ++ (some "features", .array (given ++ .object members :: later)) :: after))
          = some { e with features := features }
        ∧ Entity.rest? { e with features := features } = e.rest?
        ∧ Entity.parent? { e with features := features } = e.parent?
        ∧ Entity.declaredSubtypes { e with features := features } = e.declaredSubtypes
  /-- A field may be of an unknown kind. -/
  fieldType {tag : String} {t t' : Tree} {f : Field} :
    (∀ k : FieldType, k ≠ .unknown → k.tag ≠ tag) → Retagged tag t t' →
    Field.decode maxLevels t = some f →
    Field.decode maxLevels t' = some { f with fieldType := .unknown }
  /-- So may one of the fields of an entity type. -/
  entityFieldType {before after : List (Option String × Tree)} {given later : List Tree}
    {tag : String} {t t' : Tree} {e : Entity} :
    (∀ k : FieldType, k ≠ .unknown → k.tag ≠ tag) → Retagged tag t t' →
    Entity.decode maxLevels
      (.object (before ++ (some "fields", .array (given ++ t :: later)) :: after)) = some e →
    ∃ us f ws, e.fields = us ++ f :: ws ∧ us.length = given.length ∧ Entity.decode maxLevels
      (.object (before ++ (some "fields", .array (given ++ t' :: later)) :: after))
        = some { e with fields := us ++ { f with fieldType := .unknown } :: ws }

/-- **What a server adds is not in the way**: other orders of members, members with unknown keys,
unknown features and unknown kinds of field do not change anything else that is read. What is added
to a feature has to be moderate; what is added elsewhere is not looked at. -/
theorem tolerant : Tolerant Moderate where
  entity h := h.decode (s := .entity) (by decide)
  field h := h.decode (s := .field) (by decide)
  listNode h := h.decode (s := .listNode) (by decide)
  phase h := h.decode (s := .phase) (by decide)
  feature hnodup hname htag hfits he := by
    have hvalue := hfits.isSome_value? (by decide : 100 ≤ maxLevels - 2)
    obtain ⟨us, ws, hfeatures, -, hdecode⟩ :=
      Entity.decode_insert_feature (Feature.decode_unknown hnodup hname htag hvalue) he
    exact ⟨_, hdecode, Entity.insert_other hfeatures rfl⟩
  fieldType htag h hf := by
    rw [← FieldType.ofTag_unknown htag]
    exact h.decode hf
  entityFieldType htag h he := by
    rw [← FieldType.ofTag_unknown htag]
    exact h.decode_entity he

/-- An entity type with one collection. The feature may have more members. -/
def oneCollection (more : List (Option String × Tree)) : Tree :=
  .object [(some "name", .text (some "work_item")),
    (some "features", .array [.object
      ((some "name", .text (some "rest")) :: (some "url", .text (some "work_items")) :: more)])]

theorem edit_oneCollection {fits : Tree → Prop} {key : String} {t : Tree}
    (hkey : key ∉ ["name", "url", "methods"]) (hfits : fits t) :
    Edit fits .entity (oneCollection []) (oneCollection [(some key, t)]) := by
  have hfeature := @Edit.insertFeature fits
    [(some "name", .text (some "rest")), (some "url", .text (some "work_items"))] [] "rest" key t
    List.mem_cons_self hkey hfits
  have hlist := @Edit.item fits .feature [] [] _ _ hfeature
  exact @Edit.member fits .entity _ [(some "name", .text (some "work_item"))] [] "features" _ _
    (by simp [Shape.fields]) hlist

theorem tolerant_oneCollection :
    Entity.decode maxLevels (oneCollection [(some "color", .array [.null])])
      = some ⟨"work_item", "", [.rest "work_items" []], []⟩ :=
  tolerant.entity (.single (edit_oneCollection (by decide) (by decide))) (by decide)

/-- A feature that has a number out of range besides what is read from it cannot be read. -/
theorem not_tolerant_unreadable : ¬Tolerant fun t => t.depth ≤ 100 := by
  intro h
  have hedit : Edit (fun t => t.depth ≤ 100) .entity (oneCollection [])
      (oneCollection [(some "weight", .number ⟨false, [1], [], some (false, [4, 0, 0])⟩)]) :=
    edit_oneCollection (by decide) (by decide)
  have hbefore : Entity.decode maxLevels (oneCollection [])
      = some ⟨"work_item", "", [.rest "work_items" []], []⟩ := by decide
  have hafter := h.entity (.single hedit) hbefore
  revert hafter
  decide

end TypedEntities.Metadata
