import Mathlib
import TypedEntities.Proofs.Java.Member
import TypedEntities.Proofs.Source.Constructors

/-!
# The members of a model

A model has a setter for every type that a field accepts, and its constructors call setters for the
parameters they are given. The setters are made field by field and the parameters from the table of
required fields; still every setter that a constructor calls is there (`ModelSource.hasSetter_of`).

Getters, setters and parameters are named by the names of the fields, of which only letters and
digits count. `ModelSource.membersApart_iff` says when their names and types are distinct.
-/

namespace TypedEntities

open TypedEntities.Metadata
open TypedEntities.Java (TypeExpr typeName memberName erasure)

/-! ## The setters that constructors call -/

/-- The model has the setter that a constructor calls for a parameter. -/
def ModelSource.HasSetter (m : ModelSource) (q : Parameter) : Prop :=
  ∃ f ∈ m.fields, f.accessor = q.accessor ∧ ∃ a ∈ f.setters, a.javaType = q.javaType

/-- A field that is required has a setter for every type, whether it is editable or not. -/
theorem FieldSource.setters_of_required {package : String} {field : Field} {types : List TypeExpr}
    (h : field.required = true) :
    (FieldSource.of package field types).setters = types.map (Accessor.ofType package) := by
  unfold FieldSource.of
  rw [h, Bool.or_true, if_pos rfl]

/-- Fields that are sorted already stay as they are. -/
theorem sortFields_eq_self {fields : List Field}
    (h : fields.Pairwise fun a b => a.name ≤ b.name) : sortFields fields = fields :=
  List.mergeSort_of_pairwise (h.imp decide_eq_true)

namespace ModelSource

variable {package : String} {entity : Entity} {r : Resolver} {m : ModelSource}

/-- **Constructors call setters that exist.** Where several fields have a name, the last required one
gives the types of the parameter, and its setters take them. -/
theorem hasSetter_of (h : ModelSource.of package entity r = .ok m) :
    ∀ c ∈ m.constructors, ∀ q ∈ c.parameters, m.HasSetter q := by
  obtain ⟨fields, combinations, -, hcombinations, rfl⟩ := of_ok h
  intro c hc q hq
  obtain ⟨combination, hcombination, rfl⟩ :=
    List.mem_map.mp ((distinctConstructors_sublist _ _).subset hc)
  -- the parameter is a type that was chosen from the table, and the table has it from a field
  obtain ⟨⟨name, t⟩, hchoice, rfl⟩ := List.mem_map.mp hq
  obtain ⟨types, hget, ht⟩ :=
    RequiredFields.accepts_of_combinations hcombinations hcombination hchoice
  obtain ⟨field, accepted, hmem, rfl, hrequired, rfl⟩ := mem_of_requiredFields hget
  refine ⟨FieldSource.of package field accepted, List.mem_map_of_mem hmem, rfl, ?_⟩
  rw [FieldSource.setters_of_required hrequired]
  exact ⟨.ofType package t, List.mem_map_of_mem (List.mem_eraseDups.mp ht), rfl⟩

/-- A type with a required field that cannot be edited and stands in the list twice: it refers to a
release at first and is a text at last. -/
def repeated : Entity :=
  (Entity.named "comment").withFields
    [{ Field.referring "owner" false [Target.entity "release"] with
        required := true, editable := false },
      { Field.plain "owner" .string with required := true, editable := false }]

/-- The constructor takes the text. -/
theorem hasSetter_repeated :
    ∃ m, ModelSource.of "sdk" repeated releases = .ok m
      ∧ m.constructors = [⟨[⟨"owner", "Owner", "String"⟩]⟩]
      ∧ ∀ c ∈ m.constructors, ∀ q ∈ c.parameters, m.HasSetter q := by
  have hsorted : sortFields repeated.fields = repeated.fields := sortFields_eq_self (by decide)
  have hok : ((ModelSource.of "sdk" repeated releases).map constructors).toOption
      = some [⟨[⟨"owner", "Owner", "String"⟩]⟩] := by
    rw [ModelSource.of, resolveFields, hsorted]
    decide +kernel
  obtain ⟨m, hm, hconstructors⟩ := Outcome.exists_of_toOption_map hok
  exact ⟨m, hm, hconstructors, hasSetter_of hm⟩

/-! ## Members that can be told apart -/

/-- No two fields have getters or setters of one name, no two setters of a field take types that Java
cannot tell apart, and no two parameters of a constructor have one name. -/
structure MembersApart (m : ModelSource) : Prop where
  accessors : (m.fields.map FieldSource.accessor).Nodup
  setters : ∀ f ∈ m.fields, (f.setters.map fun a => erasure a.javaType).Nodup
  parameters : ∀ c ∈ m.constructors, (c.parameters.map Parameter.member).Nodup

/-- The fields of an entity type have type names of their own, and so have the models that a field
with setters accepts. -/
structure FieldsApart (r : Resolver) (entity : Entity) : Prop where
  names : ∀ a ∈ entity.fields.map Field.name, ∀ b ∈ entity.fields.map Field.name,
    typeName a = typeName b → a = b
  types : ∀ field ∈ entity.fields, (field.editable || field.required) = true → ∀ types,
    r.candidates entity.name field = .ok types → TypesApart types

/-- What fields are resolved to. -/
theorem mem_resolveFields_iff {fields : List (Field × List TypeExpr)}
    (h : resolveFields r entity = .ok fields) {field : Field} {types : List TypeExpr} :
    (field, types) ∈ fields ↔ field ∈ entity.fields ∧ r.candidates entity.name field = .ok types := by
  have hsorted : ∀ field, field ∈ fields.map Prod.fst ↔ field ∈ entity.fields := fun field => by
    rw [map_fst_of_resolveFields h]
    exact List.mem_mergeSort
  constructor
  · intro hmem
    exact ⟨(hsorted field).mp (List.mem_map_of_mem hmem), candidates_of_resolveFields h hmem⟩
  · rintro ⟨hfield, htypes⟩
    obtain ⟨⟨field', types'⟩, hmem, rfl⟩ := List.mem_map.mp ((hsorted field).mpr hfield)
    have hsame := (candidates_of_resolveFields h hmem).symm.trans htypes
    rwa [← Except.ok.inj hsame]

/-- Getters and setters of different fields have different names exactly if the fields have different
type names. -/
theorem nodup_accessors_iff {fields : List (Field × List TypeExpr)}
    (h : resolveFields r entity = .ok fields) (hnames : (entity.fields.map Field.name).Nodup) :
    ((fields.map fun f => FieldSource.of package f.1 f.2).map FieldSource.accessor).Nodup
      ↔ ∀ a ∈ entity.fields.map Field.name, ∀ b ∈ entity.fields.map Field.name,
        typeName a = typeName b → a = b := by
  have haccessors : (fields.map fun f => FieldSource.of package f.1 f.2).map FieldSource.accessor
      = ((sortFields entity.fields).map Field.name).map typeName := by
    rw [← map_fst_of_resolveFields h, List.map_map, List.map_map, List.map_map]
    rfl
  have hperm : (((sortFields entity.fields).map Field.name).map typeName).Perm
      ((entity.fields.map Field.name).map typeName) :=
    ((List.mergeSort_perm ..).map _).map _
  rw [haccessors, hperm.nodup_iff, List.nodup_map_iff_inj_on hnames]

/-- Java tells the setters of a field apart exactly if it has none, or the models among its types have
type names of their own. -/
theorem nodup_setters_iff {owner : String} {field : Field} {types : List TypeExpr}
    (h : r.candidates owner field = .ok types) :
    ((FieldSource.of package field types).setters.map fun a => erasure a.javaType).Nodup
      ↔ ((field.editable || field.required) = true → TypesApart types) := by
  unfold FieldSource.of
  by_cases hset : (field.editable || field.required) = true
  · have htypes : (types.map (Accessor.ofType package)).map (fun a => erasure a.javaType)
        = types.map fun t => erasure (t.text package) := List.map_map
    simp only [if_pos hset]
    rw [htypes, List.nodup_map_iff_inj_on (Resolver.nodup_candidates h), erasure_inj_iff h]
    exact ⟨fun hapart _ => hapart, fun hapart => hapart hset⟩
  · simp only [if_neg hset]
    exact iff_of_true .nil fun h => absurd h hset

/-- The parameters of a constructor have different names if the fields have different type names. -/
theorem nodup_members {fields : List (Field × List TypeExpr)}
    (h : resolveFields r entity = .ok fields)
    (hnames : ∀ a ∈ entity.fields.map Field.name, ∀ b ∈ entity.fields.map Field.name,
      typeName a = typeName b → a = b) {combinations : List Combination}
    (hcombinations : (requiredFields fields).combinations entity.name = .ok combinations)
    {combination : Combination} (hmem : combination ∈ combinations) :
    ((Constructor.of package combination).parameters.map Parameter.member).Nodup := by
  have hchosen : combination.map Prod.fst = (requiredFields fields).fields.entries.map Prod.fst := by
    rcases RequiredFields.combinations_ok hcombinations with ⟨-, rfl⟩ | ⟨-, rfl⟩
    · cases hmem
    · exact map_eq_of_forall₂ (fun _ _ hchoice => hchoice.1) (mem_choices_iff.mp hmem)
  -- the table lists each name once, and all of them are names of fields
  have hdistinct : ((requiredFields fields).fields.entries.map Prod.fst).Nodup :=
    (requiredFields fields).fields.ascending.imp fun hlt => Std.ne_of_lt hlt
  have hfield : ∀ name ∈ (requiredFields fields).fields.entries.map Prod.fst,
      name ∈ entity.fields.map Field.name := by
    intro name hname
    obtain ⟨⟨name, types⟩, hentry, rfl⟩ := List.mem_map.mp hname
    obtain ⟨field, accepted, hfield, -, -, rfl⟩ :=
      mem_of_requiredFields (Table.get?_eq_some_iff.mpr hentry)
    exact List.mem_map_of_mem ((mem_resolveFields_iff h).mp hfield).1
  have hmembers : (Constructor.of package combination).parameters.map Parameter.member
      = ((requiredFields fields).fields.entries.map Prod.fst).map memberName := by
    rw [← hchosen, Constructor.of, List.map_map, List.map_map]
    rfl
  rw [hmembers]
  refine hdistinct.map_on fun a ha b hb heq => ?_
  exact hnames a (hfield a ha) b (hfield b hb) (Java.memberName_inj.mp heq)

/-- **When the members of a model can be told apart**: exactly if the fields have type names of their
own, and the models that a field with setters accepts have so too. Different names are not enough. -/
theorem membersApart_iff (hnames : (entity.fields.map Field.name).Nodup)
    (h : ModelSource.of package entity r = .ok m) : m.MembersApart ↔ FieldsApart r entity := by
  obtain ⟨fields, combinations, hfields, hcombinations, rfl⟩ := of_ok h
  constructor
  · intro hapart
    -- a constructor need not exist, so its parameters say nothing about the names
    refine ⟨(nodup_accessors_iff hfields hnames).mp hapart.accessors, ?_⟩
    intro field hfield hset types htypes
    have hmem := (mem_resolveFields_iff hfields).mpr ⟨hfield, htypes⟩
    have hsetters := hapart.setters _ (List.mem_map_of_mem hmem)
    exact (nodup_setters_iff htypes).mp hsetters hset
  · intro hapart
    refine ⟨(nodup_accessors_iff hfields hnames).mpr hapart.names, ?_, ?_⟩
    · intro f hf
      obtain ⟨⟨field, types⟩, hmem, rfl⟩ := List.mem_map.mp hf
      obtain ⟨hfield, htypes⟩ := (mem_resolveFields_iff hfields).mp hmem
      exact (nodup_setters_iff htypes).mpr fun hset => hapart.types field hfield hset types htypes
    · intro c hc
      obtain ⟨combination, hcombination, rfl⟩ :=
        List.mem_map.mp ((distinctConstructors_sublist _ _).subset hc)
      exact nodup_members hfields hapart.names hcombinations hcombination

/-- A type with a title and an owner, a release or an entity without a model. -/
def signed : Entity :=
  (Entity.named "comment").withFields
    [Field.plain "name" .string,
      Field.referring "owner_entity" false [Target.entity "release", Target.entity "audit"]]

theorem fieldsApart_signed : FieldsApart releases signed := by
  refine ⟨by decide +kernel, fun field hfield _ types htypes => ?_⟩
  have howner : releases.candidates "comment"
      (Field.referring "owner_entity" false [Target.entity "release", Target.entity "audit"])
      = .ok [.model "release", .generic] := by rfl
  rcases List.mem_cons.mp hfield with rfl | hfield
  · cases htypes
    exact ⟨by simp, by simp⟩
  · obtain rfl := List.mem_singleton.mp hfield
    obtain rfl := Except.ok.inj (howner.symm.trans htypes)
    refine ⟨by simp, fun _ a ha => ?_⟩
    obtain rfl : a = "release" := by simpa using ha
    decide +kernel

theorem membersApart_signed :
    (signed.fields.map Field.name).Nodup
      ∧ ∃ m, ModelSource.of "sdk" signed releases = .ok m ∧ m.MembersApart := by
  have hnames : (signed.fields.map Field.name).Nodup := by decide
  have hsorted : sortFields signed.fields = signed.fields := sortFields_eq_self (by decide)
  have hok : (ModelSource.of "sdk" signed releases).isOk := by
    rw [ModelSource.of, resolveFields, hsorted]
    decide +kernel
  obtain ⟨m, hm⟩ := Outcome.exists_of_isOk hok
  exact ⟨hnames, m, hm, (membersApart_iff hnames hm).mpr fieldsApart_signed⟩

/-- A type with two fields whose names differ in a way that type names do not keep, and with a
reference to two types of which the same holds. -/
def tangled : Entity :=
  (Entity.named "defect").withFields
    [Field.referring "parent" false [Target.entity "userStory", Target.entity "user_story"],
      { Field.plain "releaseVersion" .string with required := true },
      { Field.plain "release_version" .string with required := true }]

def stories : Resolver :=
  ⟨.ofList [Entity.named "userStory", Entity.named "user_story"], .empty, .empty⟩

/-- Nothing that should be apart in the model of the type is so. -/
theorem not_membersApart_tangled :
    (tangled.fields.map Field.name).Nodup ∧ ∃ m, ModelSource.of "sdk" tangled stories = .ok m
      ∧ ¬(m.fields.map FieldSource.accessor).Nodup
      ∧ (∃ f ∈ m.fields, ¬(f.setters.map fun a => erasure a.javaType).Nodup)
      ∧ ∃ c ∈ m.constructors, ¬(c.parameters.map Parameter.member).Nodup := by
  have hsorted : sortFields tangled.fields = tangled.fields := sortFields_eq_self (by decide)
  have hok : ((ModelSource.of "sdk" tangled stories).map fun m => decide
      (¬(m.fields.map FieldSource.accessor).Nodup
        ∧ (∃ f ∈ m.fields, ¬(f.setters.map fun a => erasure a.javaType).Nodup)
        ∧ ∃ c ∈ m.constructors, ¬(c.parameters.map Parameter.member).Nodup)).toOption
      = some true := by
    rw [ModelSource.of, resolveFields, hsorted]
    decide +kernel
  obtain ⟨m, hm, hsame⟩ := Outcome.exists_of_toOption_map hok
  exact ⟨by decide, m, hm, of_decide_eq_true hsame⟩

end ModelSource

end TypedEntities
