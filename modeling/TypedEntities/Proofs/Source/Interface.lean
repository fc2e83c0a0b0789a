import Mathlib
import TypedEntities.Proofs.Catalog
import TypedEntities.Source.Model

/-!
# Interfaces and subtypes

A type is below another if either of the two says so, but its interface is made of what it says
itself. `InterfaceSource.extends_parent_iff` tells for a type with one parent when its interface
extends the parent's: if the type names its parent. Where only the parent lists it
(`not_extends_parent_unnamed`), references take it for a subtype and Java does not.
-/

namespace TypedEntities.InterfaceSource

open TypedEntities.Metadata
open TypedEntities.Java (typeName interfaceName)

variable {e : Entity} {catalog : Catalog}

/-- A type that names no parent is below the interface of all entities only. -/
theorem superInterface_of_none (package : String) (h : e.parent? = none) :
    (of package e catalog).superInterface = top := by
  simp only [of, h, Option.filter_none]

/-- A type that names a parent with a model extends the parent's interface. -/
theorem superInterface_of_some (package : String) {parent : String} (h : e.parent? = some parent)
    (hparent : catalog.isGenerated parent = true) :
    (of package e catalog).superInterface = interfaceName parent := by
  simp only [of, h, Option.filter_some, hparent, if_true]

/-- Only a type without a name of its own has the interface of all entities. -/
theorem interfaceName_eq_top_iff {name : String} : interfaceName name = top ↔ typeName name = "" := by
  have htop : top = "" ++ top := rfl
  show typeName name ++ "Entity" = top ↔ _
  rw [htop]
  exact String.append_left_inj _

/-- **When an interface extends that of the parent**, for a type that is below one type only: if the
type names its parent. If it does not, the parent lists the type and the interface is below that of
all entities. -/
theorem extends_parent_iff (package : String) {types : List Entity} {parent child : String}
    (hparent : (Catalog.ofList types).isGenerated parent = true)
    (hchild : (Catalog.ofList types).get? child = some e)
    (hsub : child ∈ (Catalog.ofList types).subtypes parent)
    (honly : ∀ other, child ∈ (Catalog.ofList types).subtypes other → other = parent) :
    ((of package e (Catalog.ofList types)).superInterface = interfaceName parent
        ↔ e.parent? = some parent ∨ typeName parent = "")
      ∧ (e.parent? ≠ some parent →
        (of package e (Catalog.ofList types)).superInterface = top
          ∧ ∃ p, (Catalog.ofList types).get? parent = some p ∧ child ∈ p.declaredSubtypes) := by
  by_cases hnames : e.parent? = some parent
  · refine ⟨?_, fun hne => absurd hnames hne⟩
    exact iff_of_true (superInterface_of_some package hnames hparent) (.inl hnames)
  · -- a parent that the type names would be another type above it
    have hnone : e.parent? = none := by
      refine Option.eq_none_iff_forall_ne_some.mpr fun other hother => ?_
      have habove := Catalog.mem_subtypes_iff.mpr (.inr ⟨e, hchild, hother⟩)
      exact hnames (honly other habove ▸ hother)
    have htop : (of package e (Catalog.ofList types)).superInterface = top :=
      superInterface_of_none package hnone
    refine ⟨?_, fun _ => ⟨htop, ?_⟩⟩
    · rw [htop, eq_comm, interfaceName_eq_top_iff, or_iff_right hnames]
    · rcases Catalog.mem_subtypes_iff.mp hsub with hlisted | ⟨e', he', hparent'⟩
      · exact hlisted
      · obtain rfl := Option.some.inj (hchild.symm.trans he')
        exact absurd hparent' hnames

/-! ## A parent and a subtype -/

/-- A type and one below it that names it. -/
def named : List Entity :=
  [Entity.named "work_item", (Entity.named "defect").addFeature (.subtypeOf "work_item")]

/-- The same, but the parent lists the type below it, which does not name it. -/
def listed : List Entity :=
  [(Entity.named "work_item").addFeature (.subtypes ["defect"]), Entity.named "defect"]

/-- In both the one type is below the other, and no other type is below any. -/
theorem eq_of_mem_subtypes {types : List Entity}
    (h : (Catalog.ofList types).edges.entries = [("work_item", ["defect"])]) {other : String}
    (hother : "defect" ∈ (Catalog.ofList types).subtypes other) : other = "work_item" := by
  unfold Catalog.subtypes Table.get? at hother
  rw [h] at hother
  by_contra hne
  simp [Ne.symm hne] at hother

theorem extends_parent_named :
    (Catalog.ofList named).isGenerated "work_item" = true
      ∧ "defect" ∈ (Catalog.ofList named).subtypes "work_item"
      ∧ ∃ e, (Catalog.ofList named).get? "defect" = some e
        ∧ (of "sdk" e (Catalog.ofList named)).superInterface = "WorkItemEntity" := by
  have hparent : (Catalog.ofList named).isGenerated "work_item" = true := by decide +kernel
  have hsub : "defect" ∈ (Catalog.ofList named).subtypes "work_item" := by decide +kernel
  have hedges : (Catalog.ofList named).edges.entries = [("work_item", ["defect"])] := by
    decide +kernel
  have hchild : (Catalog.ofList named).get? "defect"
      = some ((Entity.named "defect").addFeature (.subtypeOf "work_item")) := by decide +kernel
  have hname : interfaceName "work_item" = "WorkItemEntity" := by decide +kernel
  refine ⟨hparent, hsub, _, hchild, ?_⟩
  rw [← hname]
  exact (extends_parent_iff "sdk" hparent hchild hsub fun _ => eq_of_mem_subtypes hedges).1.mpr
    (.inl rfl)

theorem not_extends_parent_unnamed :
    ¬∀ (package : String) (types : List Entity) (parent child : String) (e : Entity),
      (Catalog.ofList types).isGenerated parent = true →
      (Catalog.ofList types).isGenerated child = true →
      (Catalog.ofList types).get? child = some e →
      child ∈ (Catalog.ofList types).subtypes parent →
      (∀ other, child ∈ (Catalog.ofList types).subtypes other → other = parent) →
      (of package e (Catalog.ofList types)).superInterface = interfaceName parent := by
  intro hall
  have hedges : (Catalog.ofList listed).edges.entries = [("work_item", ["defect"])] := by
    decide +kernel
  have hextends := hall "sdk" listed "work_item" "defect" (Entity.named "defect")
    (by decide +kernel) (by decide +kernel) (by decide +kernel) (by decide +kernel)
    fun _ => eq_of_mem_subtypes hedges
  exact absurd hextends (by decide +kernel)

end TypedEntities.InterfaceSource
