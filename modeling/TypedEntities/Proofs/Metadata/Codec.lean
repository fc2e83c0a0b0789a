import TypedEntities.Metadata.Codec
import TypedEntities.Proofs.Json.Decode

/-!
# Metadata survives its JSON form

Each record is written as an object with the members of its parts, of which some may be left out, and
each part is read back from its member. Reading is limited in how deep it goes, so every lemma says
how many levels are needed below a record. `decode_compact_toJson` puts them together, from text to
text.
-/

namespace TypedEntities.Metadata

open TypedEntities.Json TypedEntities.Json.Decoder

/-! ## Targets of references -/

/-- The members of a target. One that is no list has no logical name and leaves it out. -/
def Target.entries (t : Target) : List (String × Option Json) :=
  [("type", some (.text t.entityType)), ("logical_name", t.logicalName.map .text)]

/-- A target is written by its members. -/
theorem Target.toJson_eq (t : Target) : t.toJson = ofEntries t.entries := by
  obtain ⟨entityType, _ | logicalName⟩ := t <;> rfl

/-- A target is read back, with or without a logical name. Reading goes down one level. -/
theorem reads_target (levels : Nat) (t : Target) :
    Target.decode.Reads (levels + 1) t.toJson t := by
  rw [t.toJson_eq]
  constructor
  · exact whole_ofEntries (by simp [Target.entries, Whole])
  · rw [Target.decode, slots_ofEntries t.entries ["type", "logical_name"] rfl (by decide)]
    simp only [Target.entries, List.map_cons, List.map_nil, Option.map_some, Option.bind_eq_bind,
      Option.bind_some, Nat.add_sub_cancel, required_some, (reads_text levels _).decodes,
      withDefault_text, Option.pure_def]

/-! ## Fields -/

/-- The members of what a reference says: whether it holds several, and its targets. -/
def ReferenceData.entries (d : ReferenceData) : List (String × Option Json) :=
  [("multiple", some (.bool d.multiple)), ("targets", some (.array (d.targets.map Target.toJson)))]

/-- What a reference says is read back. Below it are the list of targets and the targets. -/
theorem reads_referenceData (levels : Nat) (d : ReferenceData) :
    ReferenceData.decode.Reads (levels + 3) d.toJson d := by
  have htargets : (list Target.decode).Reads (levels + 2)
      (.array (d.targets.map Target.toJson)) d.targets :=
    reads_list fun t _ => reads_target levels t
  show ReferenceData.decode.Reads (levels + 3) (ofEntries d.entries) d
  constructor
  · exact whole_ofEntries (by simp [ReferenceData.entries, whole_bool, htargets.whole])
  · rw [ReferenceData.decode,
      slots_ofEntries d.entries ["multiple", "targets"] rfl (by decide)]
    simp only [ReferenceData.entries, List.map_cons, List.map_nil, Option.map_some,
      Option.bind_eq_bind, Option.bind_some, Nat.add_one_sub_one, withDefault_some,
      (reads_bool _ _).decodes, htargets.decodes, Option.pure_def]

/-- Each kind of field is known by its own tag. -/
theorem FieldType.ofTag_tag (t : FieldType) : FieldType.ofTag t.tag = t := by
  cases t <;> rfl

/-- A kind of field is read back from its tag, on no level of its own. -/
theorem reads_fieldType (levels : Nat) (t : FieldType) :
    FieldType.decode.Reads levels (.text t.tag) t :=
  ⟨whole_text _, by rw [toTree, FieldType.decode, Option.map_some, t.ofTag_tag]⟩

/-- The members of a field. One that says nothing of a reference leaves that out. -/
def Field.entries (f : Field) : List (String × Option Json) :=
  [("name", some (.text f.name)), ("label", some (.text f.label)),
    ("field_type", some (.text f.fieldType.tag)), ("required", some (.bool f.required)),
    ("sortable", some (.bool f.sortable)), ("editable", some (.bool f.editable)),
    ("field_type_data", f.reference.map ReferenceData.toJson)]

/-- A field is written by its members. -/
theorem Field.toJson_eq (f : Field) : f.toJson = ofEntries f.entries := by
  obtain ⟨name, label, fieldType, required, sortable, editable, _ | reference⟩ := f <;> rfl

/-- A field is read back, with its targets if it has any. -/
theorem reads_field (levels : Nat) (f : Field) :
    Field.decode.Reads (levels + 4) f.toJson f := by
  rw [f.toJson_eq]
  have hreference := withDefault_nullable (reads_referenceData levels) (fun _ h => nomatch h)
    f.reference
  constructor
  · refine whole_ofEntries ?_
    simp [Field.entries, whole_bool, whole_text, (reads_referenceData levels _).whole]
  · rw [Field.decode, slots_ofEntries f.entries ["name", "label", "field_type", "required",
      "sortable", "editable", "field_type_data"] rfl (by decide)]
    simp only [Field.entries, List.map_cons, List.map_nil, Option.map_some,
      Option.bind_eq_bind, Option.bind_some, Nat.add_one_sub_one, required_some, withDefault_some,
      (reads_text _ _).decodes, (reads_fieldType _ _).decodes, (reads_bool _ _).decodes,
      hreference, Option.pure_def]

/-! ## Features -/

/-- No text of a list of texts is refused as a value, however deep the list stands. -/
theorem valueItems?_texts (levels : Nat) (texts : List String) :
    valueItems? levels ((texts.map Json.text).map toTree) = some (texts.map Json.text) := by
  induction texts with
  | nil => rfl
  | cons s texts ih =>
    simp only [List.map_cons, valueItems?, toTree, Tree.value?, ih]
    rfl

/-- All of a feature is a value. -/
theorem isNone_value?_feature (levels : Nat) (f : Feature) :
    (f.toJson.toTree.value? (levels + 2)).isNone = false := by
  have htexts : ∀ texts : List String,
      (Json.ofTexts texts).toTree.value? (levels + 1) = some (Json.ofTexts texts) := by
    intro texts
    rw [Json.ofTexts, toTree, itemTrees_eq_map, Tree.value?, if_neg (by omega), Nat.add_one_sub_one,
      valueItems?_texts, Option.map_some]
  cases f <;> simp [Feature.toJson, toTree, memberTrees, Tree.value?, valueMembers?, htexts]

/-- A feature is read back: it is told by its name from all others, and a capability without a
meaning here stays one. -/
theorem reads_feature (levels : Nat) (f : Feature) :
    Feature.decode.Reads (levels + 2) f.toJson f := by
  constructor
  · cases f <;> simp [Feature.toJson, Whole, WholeMembers, (reads_texts levels _).whole]
  · unfold Feature.decode
    rw [isNone_value?_feature, if_neg Bool.false_ne_true]
    have htexts := fun texts => (reads_texts levels texts).decodes
    cases f with
    | rest url methods =>
      have hslots : slotsOfMembers ["url", "methods"]
          [(some "url", .text (some url)), (some "methods", (Json.ofTexts methods).toTree)]
          = some [some (.text (some url)), some (Json.ofTexts methods).toTree] :=
        slotsOfMembers_ofEntries [("url", some (.text url)), ("methods", some (.ofTexts methods))] _
          rfl (by decide)
      simp [Feature.toJson, toTree, memberTrees, Feature.ofMembers, hslots, required_some,
        withDefault_some, Decoder.text, htexts]
    | subtypeOf parent =>
      have hslots : slotsOfMembers ["type"] [(some "type", .text (some parent))]
          = some [some (.text (some parent))] :=
        slotsOfMembers_ofEntries [("type", some (.text parent))] _ rfl (by decide)
      simp [Feature.toJson, toTree, memberTrees, Feature.ofMembers, hslots, required_some,
        Decoder.text]
    | subtypes types =>
      have hslots : slotsOfMembers ["types"] [(some "types", (Json.ofTexts types).toTree)]
          = some [some (Json.ofTexts types).toTree] :=
        slotsOfMembers_ofEntries [("types", some (.ofTexts types))] _ rfl (by decide)
      simp [Feature.toJson, toTree, memberTrees, Feature.ofMembers, hslots, withDefault_some, htexts]
    | other => rfl

/-! ## Entity types -/

/-- The members of an entity type. One without fields leaves the list of fields out. -/
def Entity.entries (e : Entity) : List (String × Option Json) :=
  [("name", some (.text e.name)), ("label", some (.text e.label)),
    ("features", some (.array (e.features.map Feature.toJson))),
    ("fields", if e.fields.isEmpty then none else some (.array (e.fields.map Field.toJson)))]

/-- An entity type is written by its members. -/
theorem Entity.toJson_eq (e : Entity) : e.toJson = ofEntries e.entries := by
  obtain ⟨name, label, features, _ | ⟨field, fields⟩⟩ := e <;> rfl

/-- An entity type is read back, six levels down to the targets of its references. -/
theorem reads_entity (levels : Nat) (e : Entity) :
    Entity.decode.Reads (levels + 6) e.toJson e := by
  have hfeatures : (list Feature.decode).Reads (levels + 5)
      (.array (e.features.map Feature.toJson)) e.features :=
    reads_list fun f _ => reads_feature (levels + 2) f
  have hlist : (list Field.decode).Reads (levels + 5) (.array (e.fields.map Field.toJson)) e.fields :=
    reads_list fun f _ => reads_field levels f
  -- an empty list of fields is left out of the text, and read as the default
  have hfields : withDefault [] (list Field.decode) (levels + 5)
      ((if e.fields.isEmpty then none else some (Json.array (e.fields.map Field.toJson))).map toTree)
      = some e.fields := by
    cases hempty : e.fields with
    | nil => rfl
    | cons field fields =>
      rw [hempty] at hlist
      exact hlist.decodes
  rw [e.toJson_eq]
  constructor
  · refine whole_ofEntries ?_
    simp [Entity.entries, whole_text, hfeatures.whole, hlist.whole]
  · rw [Entity.decode, slots_ofEntries e.entries ["name", "label", "features", "fields"] rfl
      (by decide)]
    simp only [Entity.entries, List.map_cons, List.map_nil, Option.map_some, Option.bind_eq_bind,
      Option.bind_some, Nat.add_one_sub_one, required_some, withDefault_some,
      (reads_text _ _).decodes, hfeatures.decodes, hfields, Option.pure_def]

/-! ## List nodes and phases -/

/-- Where a node stands in its life is read back from its number. -/
theorem reads_activity (levels : Nat) (a : Activity) :
    Activity.decode.Reads levels a.toJson a := by
  constructor
  · trivial
  · cases a <;> rfl

/-- The members of a list node. A root leaves out the root that it belongs to, and a node without a
logical name that name. -/
def ListNode.entries (n : ListNode) : List (String × Option Json) :=
  [("id", some (.text n.id)), ("name", some (.text n.name)),
    ("logical_name", n.logicalName.map .text), ("activity_level", some n.activity.toJson),
    ("list_root", n.root.map .text)]

/-- A list node is written by its members. -/
theorem ListNode.toJson_eq (n : ListNode) : n.toJson = ofEntries n.entries := by
  obtain ⟨id, name, _ | logicalName, activity, _ | root⟩ := n <;> rfl

/-- A list node is read back, be it a root or a value. -/
theorem reads_listNode (levels : Nat) (n : ListNode) :
    ListNode.decode.Reads (levels + 1) n.toJson n := by
  rw [n.toJson_eq]
  constructor
  · refine whole_ofEntries ?_
    simp [ListNode.entries, whole_text, (reads_activity levels _).whole]
  · rw [ListNode.decode, slots_ofEntries n.entries ["id", "name", "logical_name",
      "activity_level", "list_root"] rfl (by decide)]
    simp only [ListNode.entries, List.map_cons, List.map_nil, Option.map_some,
      Option.bind_eq_bind, Option.bind_some, Nat.add_one_sub_one, required_some,
      (reads_text _ _).decodes, withDefault_text, (reads_activity _ _).decodes, Option.pure_def]

/-- The members of a phase. None of them is ever left out. -/
def Phase.entries (p : Phase) : List (String × Option Json) :=
  [("id", some (.text p.id)), ("name", some (.text p.name)), ("entity", some (.text p.entity))]

/-- A phase is read back. -/
theorem reads_phase (levels : Nat) (p : Phase) : Phase.decode.Reads (levels + 1) p.toJson p := by
  show Phase.decode.Reads (levels + 1) (ofEntries p.entries) p
  constructor
  · exact whole_ofEntries (by simp [Phase.entries, whole_text])
  · rw [Phase.decode, slots_ofEntries p.entries ["id", "name", "entity"] rfl (by decide)]
    simp only [Phase.entries, List.map_cons, List.map_nil, Option.map_some,
      Option.bind_eq_bind, Option.bind_some, Nat.add_one_sub_one, required_some,
      (reads_text _ _).decodes, Option.pure_def]

/-! ## From text to text -/

/-- **Metadata survives its JSON form**: the text that an entity type, a feature, a field, a list
node or a phase is written as is read as the same value, whatever its parts are and whichever of
them are left out. -/
theorem decode_compact_toJson :
    (∀ e : Entity, (Tree.parse? e.toJson.compact).bind (Entity.decode maxLevels) = some e)
      ∧ (∀ f : Feature, (Tree.parse? f.toJson.compact).bind (Feature.decode maxLevels) = some f)
      ∧ (∀ f : Field, (Tree.parse? f.toJson.compact).bind (Field.decode maxLevels) = some f)
      ∧ (∀ n : ListNode, (Tree.parse? n.toJson.compact).bind (ListNode.decode maxLevels) = some n)
      ∧ ∀ p : Phase, (Tree.parse? p.toJson.compact).bind (Phase.decode maxLevels) = some p :=
  ⟨fun e => (reads_entity 121 e).parse?_bind, fun f => (reads_feature 125 f).parse?_bind,
    fun f => (reads_field 123 f).parse?_bind, fun n => (reads_listNode 126 n).parse?_bind,
    fun p => (reads_phase 126 p).parse?_bind⟩

end TypedEntities.Metadata
