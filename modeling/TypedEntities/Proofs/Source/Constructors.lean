import Mathlib
import TypedEntities.Proofs.Source.Model

/-!
# The constructors of a model

A model has a constructor for every way to give its required fields, except where Java could not tell
it from the constructor that wraps an entity of any type or from an earlier one
(`ModelSource.overloads_of`). Where entity types have type names of their own, only one way is ever
left out: the entity of any type for the only required field.
-/

namespace TypedEntities

open TypedEntities.Metadata
open TypedEntities.Java (TypeExpr typeName genericClass erasure)

/-! ## What is required and what is kept -/

/-- What Java sees of the constructor for a combination. -/
def Combination.signature (package : String) (c : Combination) : List String :=
  c.map fun choice => erasure (choice.2.text package)

/-- The required fields of an entity type in the order of their names, each name once, with the types
that the last field of the name accepts, each once. -/
structure Requires (r : Resolver) (entity : Entity) (required : List (String × List TypeExpr)) :
    Prop where
  ascending : (required.map Prod.fst).Pairwise (· < ·)
  mem_iff : ∀ name types, (name, types) ∈ required ↔
    ∃ field accepted,
      (entity.fields.filter fun f => f.required && f.name = name).getLast? = some field
        ∧ r.candidates entity.name field = .ok accepted ∧ types = accepted.eraseDups

/-- Of the combinations those are kept, in their order, whose signatures are neither that of the
wrapping constructor nor that of an earlier combination. -/
structure KeepsNew (package : String) (product kept : List Combination) : Prop where
  sublist : kept.Sublist product
  mem_iff : ∀ before c after, product = before ++ c :: after →
    (c ∈ kept ↔ c.signature package ≠ ModelSource.wrapping
      ∧ ∀ b ∈ before, b.signature package ≠ c.signature package)

/-- Different entity types that get a model have different type names, none of them empty. -/
structure Catalog.NamesApart (c : Catalog) : Prop where
  inj : ∀ a b, c.isGenerated a = true → c.isGenerated b = true → typeName a = typeName b → a = b
  ne_empty : ∀ a, c.isGenerated a = true → typeName a ≠ ""

/-- How the constructors of a model come from the required fields of its entity type. -/
structure Overloads (package : String) (r : Resolver) (entity : Entity) (m : ModelSource)
    (required : List (String × List TypeExpr)) (product kept : List Combination) : Prop where
  requires : Requires r entity required
  isProduct : IsProduct required product
  keepsNew : KeepsNew package product kept
  constructors_eq : m.constructors = kept.map (Constructor.of package)
  /-- Java tells the constructor without parameters, the wrapping one and all others apart. -/
  distinct : ([] :: ModelSource.wrapping :: m.constructors.map Constructor.signature).Nodup
  /-- Only the entity of any type for the only required field is left out. -/
  dropped_iff : r.catalog.NamesApart → ∀ c ∈ product,
    (c ∉ kept ↔ ∃ name, required.map Prod.fst = [name] ∧ c = [(name, .generic)])

/-! ## Leaving out constructors -/

theorem Constructor.signature_of (package : String) (c : Combination) :
    (Constructor.of package c).signature = c.signature package := by
  unfold Constructor.signature Constructor.of Combination.signature
  rw [List.map_map]
  rfl

/-- No constructor that stays has a signature that was seen. -/
theorem signature_notMem_seen {seen : List (List String)} {cs : List Constructor} :
    ∀ c ∈ distinctConstructors seen cs, c.signature ∉ seen := by
  induction cs generalizing seen with
  | nil =>
    intro c hc
    cases hc
  | cons c cs ih =>
    intro c' hc'
    unfold distinctConstructors at hc'
    split at hc'
    next => exact ih c' hc'
    next hnew =>
      rcases List.mem_cons.mp hc' with rfl | hc'
      · exact hnew
      · exact fun hseen => ih c' hc' (List.mem_cons_of_mem _ hseen)

theorem nodup_signatures (seen : List (List String)) (cs : List Constructor) :
    ((distinctConstructors seen cs).map Constructor.signature).Nodup := by
  induction cs generalizing seen with
  | nil => exact .nil
  | cons c cs ih =>
    unfold distinctConstructors
    split
    next => exact ih seen
    next =>
      rw [List.map_cons, List.nodup_cons]
      refine ⟨fun hmem => ?_, ih _⟩
      obtain ⟨c', hc', heq⟩ := List.mem_map.mp hmem
      exact signature_notMem_seen c' hc' (heq ▸ List.mem_cons_self ..)

/-- The combinations whose constructors stay: none with a signature that was seen, and of those with
one signature the first. -/
theorem exists_kept (package : String) (seen : List (List String)) {product : List Combination}
    (hproduct : product.Nodup) :
    ∃ kept : List Combination, kept.Sublist product
      ∧ distinctConstructors seen (product.map (Constructor.of package))
        = kept.map (Constructor.of package)
      ∧ ∀ before c after, product = before ++ c :: after →
        (c ∈ kept ↔ c.signature package ∉ seen
          ∧ ∀ b ∈ before, b.signature package ≠ c.signature package) := by
  induction product generalizing seen with
  | nil => exact ⟨[], .slnil, rfl, fun before c after h => absurd h (by simp)⟩
  | cons first rest ih =>
    obtain ⟨hfirst, hrest⟩ := List.nodup_cons.mp hproduct
    rw [List.map_cons, distinctConstructors, Constructor.signature_of]
    by_cases hseen : first.signature package ∈ seen
    · -- the first is left out, and its signature was seen already: it rules out no later one
      obtain ⟨kept, hsublist, heq, hkept⟩ := ih seen hrest
      rw [if_pos hseen]
      refine ⟨kept, hsublist.cons _, heq, fun before c after hsplit => ?_⟩
      cases before with
      | nil =>
        obtain ⟨rfl, rfl⟩ := List.cons.inj hsplit
        exact iff_of_false (fun hmem => hfirst (hsublist.subset hmem)) fun h => h.1 hseen
      | cons b before =>
        obtain ⟨rfl, htail⟩ := List.cons.inj hsplit
        rw [hkept before c after htail, List.forall_mem_cons]
        refine and_congr_right fun hnew => (and_iff_right ?_).symm
        exact fun heq => hnew (heq ▸ hseen)
    · -- the first is kept, and for the others it counts as seen
      obtain ⟨kept, hsublist, heq, hkept⟩ := ih (first.signature package :: seen) hrest
      rw [if_neg hseen, heq]
      refine ⟨first :: kept, hsublist.cons_cons _, rfl, fun before c after hsplit => ?_⟩
      cases before with
      | nil =>
        obtain ⟨rfl, rfl⟩ := List.cons.inj hsplit
        exact iff_of_true (List.mem_cons_self ..) ⟨hseen, nofun⟩
      | cons b before =>
        obtain ⟨rfl, htail⟩ := List.cons.inj hsplit
        have hmem : c ∈ rest := htail ▸ List.mem_append_right _ (List.mem_cons_self ..)
        have hne : c ≠ first := fun heq => hfirst (heq ▸ hmem)
        rw [List.mem_cons, or_iff_right hne, hkept before c after htail, List.mem_cons,
          List.forall_mem_cons, not_or, eq_comm (a := c.signature package)]
        tauto

/-! ## Signatures and choices -/

section Apart

variable {package : String} {r : Resolver} {owner : String} {field : Field} {types : List TypeExpr}

/-- The models among types have type names of their own, and none is empty if an entity of any type is
among them too. -/
structure TypesApart (types : List TypeExpr) : Prop where
  inj : ∀ a b, .model a ∈ types → .model b ∈ types → typeName a = typeName b → a = b
  ne_empty : .generic ∈ types → ∀ a, .model a ∈ types → typeName a ≠ ""

/-- Java tells the types that a field accepts apart exactly if their names do. -/
theorem erasure_inj_iff (h : r.candidates owner field = .ok types) :
    (∀ t ∈ types, ∀ t' ∈ types, erasure (t.text package) = erasure (t'.text package) → t = t')
      ↔ TypesApart types := by
  constructor
  · intro hinj
    refine ⟨fun a b ha hb hname => ?_, fun hgeneric a ha hempty => ?_⟩
    · exact TypeExpr.model.inj (hinj _ ha _ hb (Java.erasure_modelClass_inj.mpr hname))
    · -- a type without a name would have the class of the generic model
      have hclass : erasure (Java.modelClass a) = erasure genericClass := by
        rw [Java.erasure_modelClass, Java.modelClass_eq_genericClass_iff.mpr hempty,
          Java.erasure_genericClass]
      cases hinj _ ha _ hgeneric hclass
  · intro hapart t ht t' ht' heq
    rcases Resolver.shape_of_candidates h with hmodels | ⟨only, rfl, -, -⟩
    · have hclass : ∀ entity, .generic ∈ types → TypeExpr.model entity ∈ types →
          erasure (Java.modelClass entity) ≠ erasure genericClass := by
        intro entity hgeneric hentity heq
        rw [Java.erasure_modelClass] at heq
        exact hapart.ne_empty hgeneric entity hentity (Java.modelClass_eq_genericClass_iff.mp heq)
      rcases TypeExpr.eq_generic_or_model (hmodels t ht) with rfl | ⟨a, rfl⟩ <;>
        rcases TypeExpr.eq_generic_or_model (hmodels t' ht') with rfl | ⟨b, rfl⟩
      · rfl
      · exact absurd heq.symm (hclass b ht ht')
      · exact absurd heq (hclass a ht' ht)
      · rw [hapart.inj a b ht ht' (Java.erasure_modelClass_inj.mp heq)]
    · rw [List.mem_singleton.mp ht, List.mem_singleton.mp ht']

/-- Java tells the types that a field accepts apart where the entity types have names of their own. -/
theorem candidates_erasure_inj (hnames : r.catalog.NamesApart)
    (h : r.candidates owner field = .ok types) :
    ∀ t ∈ types, ∀ t' ∈ types, erasure (t.text package) = erasure (t'.text package) → t = t' := by
  have hbacks := Resolver.backs_of_candidates h
  refine (erasure_inj_iff h).mpr ⟨fun a b ha hb hname => ?_, fun _ a ha => ?_⟩
  · exact hnames.inj a b (hbacks _ ha) (hbacks _ hb) hname
  · exact hnames.ne_empty a (hbacks _ ha)

/-- Only the entity of any type is erased to its class. -/
theorem candidates_erasure_eq_genericClass_iff (hpackage : Settings.isPackage package = true)
    (hnames : r.catalog.NamesApart) (h : r.candidates owner field = .ok types) :
    ∀ t ∈ types, erasure (t.text package) = genericClass ↔ t = .generic := by
  intro t ht
  refine ⟨fun heq => ?_, fun heq => heq ▸ Java.erasure_genericClass⟩
  rcases Resolver.shape_of_candidates h with hmodels | ⟨only, rfl, hmodel, hscalar⟩
  · rcases TypeExpr.eq_generic_or_model (hmodels t ht) with rfl | ⟨entity, rfl⟩
    · rfl
    · have hclass : Java.modelClass entity = genericClass :=
        (Java.erasure_modelClass entity).symm.trans heq
      have hempty := Java.modelClass_eq_genericClass_iff.mp hclass
      exact absurd hempty (hnames.ne_empty entity (Resolver.backs_of_candidates h _ ht))
  · rw [List.mem_singleton.mp ht] at heq
    exact absurd heq (Java.erasure_ne_genericClass hpackage hmodel hscalar)

/-- Combinations that Java cannot tell apart are the same, if it can tell the types of each field
apart. -/
theorem eq_of_signature_eq {required : List (String × List TypeExpr)}
    (hinj : ∀ field ∈ required, ∀ t ∈ field.2, ∀ t' ∈ field.2,
      erasure (t.text package) = erasure (t'.text package) → t = t') {c c' : Combination}
    (hc : List.Forall₂ Chooses c required) (hc' : List.Forall₂ Chooses c' required)
    (heq : c.signature package = c'.signature package) : c = c' := by
  induction hc generalizing c' with
  | nil => exact (List.forall₂_nil_right_iff.mp hc').symm
  | @cons choice field c rest hchoice _ ih =>
    obtain ⟨choice', tail, hchoice', htail, rfl⟩ := List.forall₂_cons_right_iff.mp hc'
    obtain ⟨hhead, hrest⟩ := List.cons.inj heq
    have htype := hinj field (List.mem_cons_self ..) _ hchoice.2 _ hchoice'.2 hhead
    have hsame : choice = choice' := Prod.ext (hchoice.1.trans hchoice'.1.symm) htype
    rw [hsame, ih (fun field hfield => hinj field (List.mem_cons_of_mem _ hfield)) htail hrest]

/-- A combination looks like the wrapping constructor if it is the entity of any type for the only
required field. -/
theorem signature_eq_wrapping_iff {required : List (String × List TypeExpr)}
    (hgeneric : ∀ field ∈ required, ∀ t ∈ field.2,
      erasure (t.text package) = genericClass ↔ t = .generic) {c : Combination}
    (hc : List.Forall₂ Chooses c required) :
    c.signature package = ModelSource.wrapping
      ↔ ∃ name, required.map Prod.fst = [name] ∧ c = [(name, .generic)] := by
  constructor
  · intro heq
    obtain ⟨⟨name, t⟩, rfl, htype⟩ := List.map_eq_singleton_iff.mp heq
    obtain ⟨field, rest, ⟨hname, ht⟩, hrest, rfl⟩ := List.forall₂_cons_left_iff.mp hc
    obtain rfl := List.forall₂_nil_left_iff.mp hrest
    obtain rfl : name = field.1 := hname
    obtain rfl : t = .generic := (hgeneric field (List.mem_cons_self ..) t ht).mp htype
    exact ⟨field.1, rfl, rfl⟩
  · intro hx
    obtain ⟨name, -, rfl⟩ := hx
    show [erasure genericClass] = ModelSource.wrapping
    rw [Java.erasure_genericClass]
    rfl

/-- Java tells the types of a required field apart. -/
theorem Requires.erasure_inj {entity : Entity} {required : List (String × List TypeExpr)}
    (h : Requires r entity required) (hnames : r.catalog.NamesApart) :
    ∀ field ∈ required, ∀ t ∈ field.2, ∀ t' ∈ field.2,
      erasure (t.text package) = erasure (t'.text package) → t = t' := by
  intro field hfield t ht t' ht'
  obtain ⟨_, accepted, -, hok, htypes⟩ := (h.mem_iff field.1 field.2).mp hfield
  rw [htypes, List.mem_eraseDups] at ht ht'
  exact candidates_erasure_inj hnames hok t ht t' ht'

theorem Requires.erasure_eq_genericClass_iff {entity : Entity}
    {required : List (String × List TypeExpr)} (h : Requires r entity required)
    (hpackage : Settings.isPackage package = true) (hnames : r.catalog.NamesApart) :
    ∀ field ∈ required, ∀ t ∈ field.2, erasure (t.text package) = genericClass ↔ t = .generic := by
  intro field hfield t ht
  obtain ⟨_, accepted, -, hok, htypes⟩ := (h.mem_iff field.1 field.2).mp hfield
  rw [htypes, List.mem_eraseDups] at ht
  exact candidates_erasure_eq_genericClass_iff hpackage hnames hok t ht

end Apart

/-! ## Which combinations are left out -/

section Dropped

variable {package : String} {required : List (String × List TypeExpr)}
  {product kept : List Combination} (hproduct : IsProduct required product)
  (hkept : KeepsNew package product kept)
include hproduct hkept

/-- Every combination that is kept sets something. -/
theorem signature_ne_nil {c : Combination} (hc : c ∈ kept) : c.signature package ≠ [] := by
  intro hnil
  obtain ⟨hrequired, hchoices⟩ := (hproduct.mem_iff c).mp (hkept.sublist.subset hc)
  obtain rfl := List.map_eq_nil_iff.mp hnil
  exact hrequired (List.forall₂_nil_left_iff.mp hchoices)

/-- If Java could tell all combinations apart, only those that look like the wrapping constructor are
left out. -/
theorem notMem_kept_iff
    (hinj : ∀ c ∈ product, ∀ c' ∈ product, c.signature package = c'.signature package → c = c')
    {c : Combination} (hc : c ∈ product) :
    c ∉ kept ↔ c.signature package = ModelSource.wrapping := by
  obtain ⟨before, after, hsplit⟩ := List.append_of_mem hc
  have hbefore : ∀ b ∈ before, b.signature package ≠ c.signature package := by
    intro b hb heq
    have hb' : b ∈ product := hsplit ▸ List.mem_append_left _ hb
    have hnodup := hproduct.nodup
    rw [hsplit, List.nodup_append] at hnodup
    exact hnodup.2.2 b hb c (List.mem_cons_self ..) (hinj b hb' c hc heq)
  rw [hkept.mem_iff before c after hsplit, not_and_or, not_ne_iff]
  exact or_iff_left fun h => h hbefore

end Dropped

namespace ModelSource

variable {package : String} {entity : Entity} {r : Resolver}

/-! ## The required fields of an entity type -/

theorem map_fst_of_resolveFields {fields : List (Field × List TypeExpr)}
    (h : resolveFields r entity = .ok fields) : fields.map Prod.fst = sortFields entity.fields := by
  have hpairs : List.Forall₂ (fun field f => f.1 = field) (sortFields entity.fields) fields := by
    refine (Outcome.mapM_eq_ok.mp h).imp fun field f hf => ?_
    obtain ⟨types, -, heq⟩ := Outcome.bind_eq_ok.mp hf
    rw [← Except.ok.inj heq]
  have hmap := map_eq_of_forall₂ (f := id) (g := Prod.fst) (fun _ _ hf => hf.symm) hpairs
  rw [← hmap, List.map_id]

/-- The last required field of a name is the same before and after sorting. -/
theorem getLast?_filter_resolveFields {fields : List (Field × List TypeExpr)}
    (h : resolveFields r entity = .ok fields) (name : String) :
    (fields.filter fun f => f.1.required && f.1.name = name).getLast?.map Prod.fst
      = (entity.fields.filter fun f => f.required && f.name = name).getLast? := by
  have hsorted : (sortFields entity.fields).filter (fun f => f.required && f.name = name)
      = entity.fields.filter fun f => f.required && f.name = name :=
    filter_mergeSort_key Field.name
      (fun f hf => of_decide_eq_true (Bool.and_eq_true_iff.mp hf).2) _
  rw [← hsorted, ← map_fst_of_resolveFields h, List.filter_map, List.getLast?_map]
  rfl

theorem requires_requiredFields {fields : List (Field × List TypeExpr)}
    (h : resolveFields r entity = .ok fields) :
    Requires r entity (requiredFields fields).fields.entries where
  ascending := (requiredFields fields).fields.ascending
  mem_iff name types := by
    rw [← Table.get?_eq_some_iff, get?_requiredFields, ← getLast?_filter_resolveFields h name]
    constructor
    · intro hlast
      obtain ⟨⟨field, accepted⟩, hf, rfl⟩ := Option.map_eq_some_iff.mp hlast
      have hmem := List.mem_of_mem_filter (List.mem_of_getLast? hf)
      exact ⟨field, accepted, by rw [hf]; rfl, candidates_of_resolveFields h hmem, rfl⟩
    · intro hlast
      obtain ⟨field, accepted, hfield, haccepted, rfl⟩ := hlast
      obtain ⟨⟨field', accepted'⟩, hf, rfl⟩ := Option.map_eq_some_iff.mp hfield
      have hmem := List.mem_of_mem_filter (List.mem_of_getLast? hf)
      -- candidates depend on the field alone
      have hsame : accepted' = accepted :=
        Except.ok.inj ((candidates_of_resolveFields h hmem).symm.trans haccepted)
      rw [hf, ← hsame]
      rfl

/-- **The constructors of a model**: of all ways to give the required fields, those that Java can tell
from the wrapping constructor and from the ways before. -/
theorem overloads_of {m : ModelSource} (hpackage : Settings.isPackage package = true)
    (h : ModelSource.of package entity r = .ok m) :
    ∃ required product kept, Overloads package r entity m required product kept := by
  obtain ⟨fields, hfields, h⟩ := Outcome.bind_eq_ok.mp h
  obtain ⟨product, hproduct, h⟩ := Outcome.bind_eq_ok.mp h
  cases h
  have hrequires := requires_requiredFields hfields
  have hnodup : ∀ field ∈ (requiredFields fields).fields.entries, field.2.Nodup := by
    intro field hfield
    obtain ⟨_, accepted, -, -, htypes⟩ := (hrequires.mem_iff field.1 field.2).mp hfield
    exact htypes ▸ nodup_eraseDups accepted
  have hisProduct := RequiredFields.isProduct_of_combinations hproduct hnodup
  obtain ⟨kept, hsublist, heq, hkept⟩ := exists_kept package [wrapping] hisProduct.nodup
  have hkeepsNew : KeepsNew package product kept := ⟨hsublist, by simpa using hkept⟩
  refine ⟨_, product, kept, hrequires, hisProduct, hkeepsNew, heq, ?_, ?_⟩
  · rw [List.nodup_cons, List.nodup_cons]
    refine ⟨fun hmem => ?_, fun hmem => ?_, nodup_signatures ..⟩
    · rcases List.mem_cons.mp hmem with hwrapping | hmem
      · cases hwrapping
      · -- a way that is kept gives a field at least
        rw [heq, List.map_map] at hmem
        obtain ⟨c, hc, hnil⟩ := List.mem_map.mp hmem
        exact signature_ne_nil hisProduct hkeepsNew hc
          ((Constructor.signature_of package c).symm.trans hnil)
    · -- the wrapping constructor counts as seen from the start
      obtain ⟨constructor, hconstructor, hwrapping⟩ := List.mem_map.mp hmem
      exact signature_notMem_seen _ hconstructor (hwrapping ▸ List.mem_cons_self ..)
  · -- where classes are told apart, a signature belongs to one way only
    intro hnames c hc
    have hchoices : ∀ c ∈ product, List.Forall₂ Chooses c (requiredFields fields).fields.entries :=
      fun c hc => ((hisProduct.mem_iff c).mp hc).2
    have hinj : ∀ c ∈ product, ∀ c' ∈ product,
        c.signature package = c'.signature package → c = c' := fun c hc c' hc' =>
      eq_of_signature_eq (hrequires.erasure_inj hnames) (hchoices c hc) (hchoices c' hc')
    rw [notMem_kept_iff hisProduct hkeepsNew hinj hc]
    exact signature_eq_wrapping_iff (hrequires.erasure_eq_genericClass_iff hpackage hnames)
      (hchoices c hc)

/-! ## A type with one required field -/

/-- A type whose only required field refers to a type with a model and to one without. -/
def comment : Entity :=
  (Entity.named "comment").withFields
    [{ Field.referring "owner_entity" false [Target.entity "release", Target.entity "audit"] with
      required := true }]

def releases : Resolver :=
  ⟨Catalog.ofList [Entity.named "release", Entity.named "audit"], .empty, .empty⟩

theorem namesApart_releases : releases.catalog.NamesApart := by
  -- of the two types one is excluded
  have honly : ∀ a, releases.catalog.isGenerated a = true → a = "release" := by
    intro a ha
    obtain ⟨hcontains, hexcluded⟩ := Bool.and_eq_true_iff.mp ha
    have hmem : a ∈ releases.catalog.names := Table.contains_iff.mp hcontains
    have hnames : releases.catalog.names = ["audit", "release"] := by decide +kernel
    rw [hnames, List.mem_cons, List.mem_singleton] at hmem
    rcases hmem with rfl | rfl
    · exact absurd hexcluded (by decide)
    · rfl
  constructor
  · intro a b ha hb _
    rw [honly a ha, honly b hb]
  · intro a ha
    rw [honly a ha]
    decide +kernel

theorem overloads_comment :
    Settings.isPackage "sdk" = true ∧ releases.catalog.NamesApart
      ∧ ∃ m, ModelSource.of "sdk" comment releases = .ok m
        ∧ ∃ required product kept, Overloads "sdk" releases comment m required product kept := by
  have hpackage : Settings.isPackage "sdk" = true := by decide +kernel
  obtain ⟨m, hm⟩ : ∃ m, ModelSource.of "sdk" comment releases = .ok m :=
    Outcome.exists_of_isOk (by decide +kernel)
  exact ⟨hpackage, namesApart_releases, m, hm, overloads_of hpackage hm⟩

end ModelSource

end TypedEntities
