import Mathlib
import TypedEntities.Proofs.Java.Selection
import TypedEntities.Proofs.Source.Members

/-!
# The fields of an entity list

A list class names the fields of its entity type twice: those that can be asked for, and among them
those that can be sorted by. Each enumeration numbers its constants by itself, so a field can have
one constant in the one and another in the other. `EntityListSource.fieldsAgree_iff` says when it
has the same in both: whatever a sortable field owes its number to has to be sortable as well.
-/

namespace TypedEntities

open TypedEntities.Metadata
open TypedEntities.Java (Alone Named Settled Sibling constantName distinctConstants numbered)

/-- A name that is its own id. -/
def Java.Sibling.ofName (name : String) : Sibling := ⟨name, name⟩

/-! ## The constants of names -/

namespace FieldConstant

variable {names : List String}

/-- Each name gets one constant, in the order of the names. -/
theorem map_name_ofNames (names : List String) :
    (ofNames names).map FieldConstant.name = names := by
  rw [ofNames, Java.constantsForNames, List.map_map]
  exact List.map_snd_zip (by rw [Java.length_distinctConstants, List.length_map])

/-- The constants of names are those that the names have among each other. -/
theorem mem_ofNames_iff {a : FieldConstant} :
    a ∈ ofNames names ↔ Named (names.map Sibling.ofName) (.ofName a.name) a.identifier := by
  obtain ⟨identifier, name⟩ := a
  -- constants and names are paired by their places
  have hpair : ⟨identifier, name⟩ ∈ ofNames names ↔ (identifier, name) ∈
      (distinctConstants (names.map Sibling.ofName) none).zip names := by
    rw [ofNames, Java.constantsForNames]
    exact List.mem_map_of_injective (a := (identifier, name)) fun _ _ heq =>
      Prod.ext (congrArg FieldConstant.identifier heq) (congrArg FieldConstant.name heq)
  rw [hpair, Java.named_iff, List.mem_iff_getElem?]
  refine exists_congr fun i => ?_
  rw [List.getElem?_zip_eq_some, and_comm, List.getElem?_map, Option.map_eq_some_iff]
  refine and_congr_left fun _ => ?_
  constructor
  · exact fun hname => ⟨name, hname, rfl⟩
  · rintro ⟨other, hother, heq⟩
    rw [hother]
    exact congrArg some (congrArg Sibling.name heq)

/-- Whoever has a constant among names is one of these. -/
theorem exists_ofName {s : Sibling} {c : String} (h : Named (names.map Sibling.ofName) s c) :
    ∃ name ∈ names, Sibling.ofName name = s := List.mem_map.mp h.mem

theorem mem_map_ofName_iff {name : String} :
    Sibling.ofName name ∈ names.map Sibling.ofName ↔ name ∈ names :=
  List.mem_map_of_injective fun _ _ heq => congrArg Sibling.name heq

/-- A name is alone if no other is made into the same constant. -/
theorem alone_iff {name : String} :
    Alone (names.map Sibling.ofName) (.ofName name)
      ↔ ∀ other ∈ names, constantName other = constantName name → other = name := by
  constructor
  · intro h other hother hconstant
    exact congrArg Sibling.name (h _ (mem_map_ofName_iff.mpr hother) hconstant)
  · intro h t ht hconstant
    obtain ⟨other, hother, rfl⟩ := List.mem_map.mp ht
    rw [h other hother hconstant]

theorem nodup_map_ofName (h : names.Nodup) : (names.map Sibling.ofName).Nodup :=
  h.map fun _ _ heq => congrArg Sibling.name heq

end FieldConstant

namespace EntityListSource

/-- The enumerations of fields agree: a constant that both have stands for one field, and a field
that both have has one constant. -/
structure FieldsAgree (l : EntityListSource) : Prop where
  names : ∀ a ∈ l.availableFields, ∀ b ∈ l.sortableFields, a.identifier = b.identifier →
    a.name = b.name
  identifiers : ∀ b ∈ l.sortableFields, b ∈ l.availableFields

/-- The names of the fields that can be sorted by. -/
def sortableNames (l : EntityListSource) : List String := l.sortableFields.map FieldConstant.name

/-- What gives a sortable field its number is sortable as well: another field that wants the same
constant, and all fields with the numbers before. -/
structure NumbersSortable (l : EntityListSource) : Prop where
  shared : ∀ a ∈ l.availableFields, a.name ∈ l.sortableNames →
    ∀ k, a.identifier = numbered (constantName a.name) k →
      ∃ name ∈ l.sortableNames, name ≠ a.name ∧ constantName name = constantName a.name
  before : ∀ a ∈ l.availableFields, a.name ∈ l.sortableNames →
    ∀ k, a.identifier = numbered (constantName a.name) k →
      ∀ j, 0 < j → j < k → ∀ b ∈ l.availableFields,
        b.identifier = numbered (constantName a.name) j → b.name ∈ l.sortableNames

section Lists

variable {l : EntityListSource} {available sortable : List String}
  (havailable : l.availableFields = FieldConstant.ofNames available)
  (hsortable : l.sortableFields = FieldConstant.ofNames sortable)
include havailable hsortable

/-- Constants agree if a field is given the same one in both selections. -/
theorem fieldsAgree_iff_named :
    l.FieldsAgree ↔ ∀ s c, Named (sortable.map Sibling.ofName) s c →
      Named (available.map Sibling.ofName) s c := by
  constructor
  · intro h s c hc
    obtain ⟨name, -, rfl⟩ := FieldConstant.exists_ofName hc
    have hmem : (⟨c, name⟩ : FieldConstant) ∈ l.availableFields :=
      h.identifiers _ (hsortable ▸ FieldConstant.mem_ofNames_iff.mpr hc)
    rw [havailable] at hmem
    exact FieldConstant.mem_ofNames_iff.mp hmem
  · intro h
    have hkept : ∀ b ∈ l.sortableFields, b ∈ l.availableFields := by
      rw [havailable, hsortable]
      intro b hb
      exact FieldConstant.mem_ofNames_iff.mpr (h _ _ (FieldConstant.mem_ofNames_iff.mp hb))
    refine ⟨fun a ha b hb hidentifier => ?_, hkept⟩
    have hb' := hkept b hb
    rw [havailable, FieldConstant.mem_ofNames_iff] at ha hb'
    rw [hidentifier] at ha
    exact congrArg Sibling.name (ha.eq hb')

/-- The condition in terms of fields is the one on selections of siblings. -/
theorem settled_iff_numbersSortable :
    Settled (available.map Sibling.ofName) (sortable.map Sibling.ofName)
      ↔ l.NumbersSortable := by
  -- one condition is about siblings, the other about their names
  have hnames : l.sortableNames = sortable := by
    rw [sortableNames, hsortable, FieldConstant.map_name_ofNames]
  constructor
  · intro h
    constructor
    · intro a ha hsort k hk
      rw [havailable, FieldConstant.mem_ofNames_iff, hk] at ha
      rw [hnames] at hsort ⊢
      have hshared := h.shared _ (FieldConstant.mem_map_ofName_iff.mpr hsort) k ha
      rw [FieldConstant.alone_iff] at hshared
      push Not at hshared
      obtain ⟨name, hname, hconstant, hne⟩ := hshared
      exact ⟨name, hname, hne, hconstant⟩
    · intro a ha hsort k hk j hj hjk b hb hidentifier
      rw [havailable, FieldConstant.mem_ofNames_iff] at ha hb
      rw [hk] at ha
      rw [hidentifier] at hb
      rw [hnames] at hsort ⊢
      exact FieldConstant.mem_map_ofName_iff.mp
        (h.before _ (FieldConstant.mem_map_ofName_iff.mpr hsort) k ha j hj hjk _ hb)
  · intro h
    constructor
    · intro s hs k hk
      obtain ⟨name, hname, rfl⟩ := List.mem_map.mp hs
      obtain ⟨other, hother, hne, hconstant⟩ := h.shared ⟨_, name⟩
        (havailable ▸ FieldConstant.mem_ofNames_iff.mpr hk) (hnames ▸ hname) k rfl
      rw [FieldConstant.alone_iff]
      exact fun halone => hne (halone other (hnames ▸ hother) hconstant)
    · intro s hs k hk j hj hjk t ht
      obtain ⟨name, hname, rfl⟩ := List.mem_map.mp hs
      obtain ⟨other, -, rfl⟩ := FieldConstant.exists_ofName ht
      refine FieldConstant.mem_map_ofName_iff.mpr (hnames ▸ ?_)
      exact h.before ⟨_, name⟩ (havailable ▸ FieldConstant.mem_ofNames_iff.mpr hk) (hnames ▸ hname)
        k rfl j hj hjk ⟨_, other⟩ (havailable ▸ FieldConstant.mem_ofNames_iff.mpr ht) rfl

end Lists

/-! ## The list of an entity type -/

/-- The names of fields, in their order. -/
def namesOf (fields : List Field) : List String := (sortFields fields).map Field.name

/-- The names of the fields that can be sorted by, in their order. -/
def sortableNamesOf (fields : List Field) : List String :=
  ((sortFields fields).filter fun f => f.sortable).map Field.name

variable {package : String} {entity : Entity} {l : EntityListSource}

/-- The two selections are numbered each on its own. -/
theorem fields_of_of? (h : of? package entity = some l) :
    l.availableFields = FieldConstant.ofNames (namesOf entity.fields)
      ∧ l.sortableFields = FieldConstant.ofNames (sortableNamesOf entity.fields) := by
  obtain ⟨rest, -, rfl⟩ := Option.map_eq_some_iff.mp h
  exact ⟨rfl, rfl⟩

theorem sortableNamesOf_sublist (fields : List Field) :
    (sortableNamesOf fields).Sublist (namesOf fields) := List.filter_sublist.map Field.name

theorem nodup_namesOf (h : (entity.fields.map Field.name).Nodup) : (namesOf entity.fields).Nodup :=
  ((List.mergeSort_perm ..).map Field.name).nodup_iff.mpr h

/-- The constants agree exactly where the selection settles the numbers. -/
theorem fieldsAgree_iff_settled (hnodup : (entity.fields.map Field.name).Nodup)
    (h : of? package entity = some l) :
    l.FieldsAgree ↔ Settled ((namesOf entity.fields).map Sibling.ofName)
      ((sortableNamesOf entity.fields).map Sibling.ofName) := by
  obtain ⟨havailable, hsortable⟩ := fields_of_of? h
  have hsub := sortableNamesOf_sublist entity.fields
  have hnames := nodup_namesOf hnodup
  rw [fieldsAgree_iff_named havailable hsortable]
  exact Java.keeps_iff (FieldConstant.nodup_map_ofName hnames)
    (FieldConstant.nodup_map_ofName (hnames.sublist hsub)) (hsub.map _).subset

/-- **The enumerations of fields agree** exactly if whatever gives a sortable field its number is
sortable as well. -/
theorem fieldsAgree_iff (hnodup : (entity.fields.map Field.name).Nodup)
    (h : of? package entity = some l) : l.FieldsAgree ↔ l.NumbersSortable := by
  obtain ⟨havailable, hsortable⟩ := fields_of_of? h
  rw [fieldsAgree_iff_settled hnodup h]
  exact settled_iff_numbersSortable havailable hsortable

/-- Two spellings of a date that can be sorted by, and a note. -/
def dated : Entity :=
  ((Entity.named "work_item").addFeature (.rest "work_items" ["GET"])).withFields
    [{ Field.plain "DUE_DATE" .date with sortable := true },
      { Field.plain "due_date" .date with sortable := true }, Field.plain "note" .string]

/-- The names as they are numbered: a field that is not sortable comes after those that are. -/
theorem names_dated :
    namesOf dated.fields = ["DUE_DATE", "due_date", "note"]
      ∧ sortableNamesOf dated.fields = ["DUE_DATE", "due_date"] := by
  have hsorted : sortFields dated.fields = dated.fields := sortFields_eq_self (by decide)
  rw [namesOf, sortableNamesOf, hsorted]
  exact ⟨rfl, rfl⟩

theorem numbersSortable_dated (h : of? package dated = some l) : l.NumbersSortable := by
  obtain ⟨havailable, hsortable⟩ := fields_of_of? h
  obtain ⟨hnames, hsortableNames⟩ := names_dated
  have hboth : l.sortableNames = ["DUE_DATE", "due_date"] := by
    rw [sortableNames, hsortable, FieldConstant.map_name_ofNames, hsortableNames]
  have hconstant : constantName "DUE_DATE" = "DUE_DATE" ∧ constantName "due_date" = "DUE_DATE"
      ∧ constantName "note" = "NOTE" := by decide +kernel
  have hdate : ∀ name ∈ l.sortableNames, constantName name = "DUE_DATE" := by
    rw [hboth]
    simp [hconstant]
  constructor
  · intro a ha hsort k hk
    rw [hdate _ hsort]
    rw [hboth] at hsort ⊢
    rcases List.mem_pair.mp hsort with hname | hname
    · exact ⟨"due_date", by decide, by rw [hname]; decide, hconstant.2.1⟩
    · exact ⟨"DUE_DATE", by decide, by rw [hname]; decide, hconstant.1⟩
  · intro a ha hsort k hk j hj hjk b hb hidentifier
    rw [hdate _ hsort] at hidentifier
    have hlisted : b.name ∈ ["DUE_DATE", "due_date", "note"] := by
      rw [← hnames, ← FieldConstant.map_name_ofNames (namesOf dated.fields), ← havailable]
      exact List.mem_map_of_mem hb
    rw [hboth]
    by_contra hother
    have hname : b.name = "note" := by simpa [not_or.mp (mt List.mem_pair.mpr hother)] using hlisted
    -- the note has its constant to itself, or with a number after it
    rw [havailable, FieldConstant.mem_ofNames_iff, hname, hidentifier] at hb
    have hnodup : (namesOf dated.fields).Nodup := nodup_namesOf (by decide)
    rcases hb.cases (FieldConstant.nodup_map_ofName hnodup) with ⟨-, heq⟩ | ⟨-, j', -, heq⟩
    · have hfirst := congrArg (fun text => text.toList.head?) (heq.trans hconstant.2.2)
      rw [Java.toList_numbered] at hfirst
      simp at hfirst
    · have hnote := (Java.numbered_inj_iff.mp heq).1
      exact absurd (hnote.trans hconstant.2.2) (by decide)

theorem fieldsAgree_dated :
    ∃ l, of? "sdk" dated = some l ∧ l.FieldsAgree := by
  obtain ⟨l, hl⟩ : ∃ l, of? "sdk" dated = some l := ⟨_, rfl⟩
  exact ⟨l, hl, (fieldsAgree_iff (by decide) hl).mpr (numbersSortable_dated hl)⟩

/-- Three spellings, of which the first cannot be sorted by. -/
def clashing : Entity :=
  ((Entity.named "work_item").addFeature (.rest "work_items" ["GET"])).withFields
    [Field.plain "DUE_DATE" .date, { Field.plain "DUE_date" .date with sortable := true },
      { Field.plain "due_date" .date with sortable := true }]

/-- Here the first of the names that clash is not sortable, and the others move up. -/
theorem names_clashing :
    namesOf clashing.fields = ["DUE_DATE", "DUE_date", "due_date"]
      ∧ sortableNamesOf clashing.fields = ["DUE_date", "due_date"] := by
  have hsorted : sortFields clashing.fields = clashing.fields := sortFields_eq_self (by decide)
  rw [namesOf, sortableNamesOf, hsorted]
  exact ⟨rfl, rfl⟩

/-- The second field is sortable, and the first has a number before that of the second. -/
theorem not_settled_clashing :
    ¬Settled ((namesOf clashing.fields).map Sibling.ofName)
      ((sortableNamesOf clashing.fields).map Sibling.ofName) := by
  obtain ⟨hnames, hsortable⟩ := names_clashing
  rw [hnames, hsortable]
  intro h
  let first := Sibling.ofName "DUE_DATE"
  let second := Sibling.ofName "DUE_date"
  have hconstant : constantName first.name = constantName second.name := by decide +kernel
  have hnodup := FieldConstant.nodup_map_ofName
    (show ["DUE_DATE", "DUE_date", "due_date"].Nodup by decide)
  obtain ⟨j, hj, hfirst⟩ := Java.exists_numbered (s := first) hnodup (by decide) fun halone =>
    absurd (halone second (by decide) hconstant.symm) (by decide)
  obtain ⟨k, -, hsecond⟩ := Java.exists_numbered (s := second) hnodup (by decide) fun halone =>
    absurd (halone first (by decide) hconstant) (by decide)
  -- in upper case the name comes first, so it has the lesser number
  have hjk : j < k := hfirst.lt_of_key_lt hnodup hsecond hconstant.symm (by decide +kernel)
  rw [hconstant] at hfirst
  exact absurd (h.before second (by decide) k hsecond j hj hjk first hfirst) (by decide)

theorem not_fieldsAgree_clashing :
    ¬∀ (package : String) (entity : Entity) (l : EntityListSource),
      (entity.fields.map Field.name).Nodup → of? package entity = some l → l.FieldsAgree := by
  intro hall
  have hagree := hall "sdk" clashing _ (by decide) rfl
  exact not_settled_clashing ((fieldsAgree_iff_settled (by decide) rfl).mp hagree)

end EntityListSource

end TypedEntities
