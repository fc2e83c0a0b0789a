import Mathlib
import TypedEntities.Java.TypeExpr
import TypedEntities.Proofs.Java.Constant
import TypedEntities.Proofs.Listing
import TypedEntities.Settings.Basic

/-!
# Erased types

Java tells overloads apart by types without their parameters. The erased text of a model is the name
of its class, so different type names give different erased types (`erasure_modelClass_inj`). No type
but that of any entity is erased to `EntityModel` (`erasure_ne_genericClass`).
-/

namespace TypedEntities.Java

open TypedEntities.Text
open TypedEntities.Metadata (FieldType)

/-! ## Type names -/

/-- Words that are run together leave no other characters than letters and digits. -/
theorem isAlphanum_of_mem_capitalizeRuns {start : Bool} {text : List Char} :
    ∀ c ∈ capitalizeRuns start text, c.isAlphanum := by
  induction text generalizing start with
  | nil =>
    intro c hc
    cases hc
  | cons d rest ih =>
    intro c hc
    unfold capitalizeRuns at hc
    split at hc
    next hd =>
      rcases List.mem_cons.mp hc with rfl | hc
      · split
        next =>
          rw [isAlphanum_iff_toNat] at hd ⊢
          rw [toNat_toUpper]
          split <;> omega
        next => exact hd
      · exact ih c hc
    next => exact ih c hc

/-- Type names are made of letters, digits and underscores. -/
theorem isWordChar_of_mem_typeName {text : String} :
    ∀ c ∈ (typeName text).toList, isWordChar c := by
  rw [typeName, String.toList_ofList]
  refine isWordChar_of_mem_guardDigit fun c hc => ?_
  rw [isWordChar, isAlphanum_of_mem_capitalizeRuns c hc, Bool.true_or]

/-- Models share a class only if their types share a name. -/
theorem modelClass_inj {a b : String} : modelClass a = modelClass b ↔ typeName a = typeName b :=
  String.append_left_inj _

/-- Only the empty type name gives the class of any entity. -/
theorem modelClass_eq_genericClass_iff {entity : String} :
    modelClass entity = genericClass ↔ typeName entity = "" := by
  have hfront := @String.append_left_inj (typeName entity) "" "EntityModel"
  rw [String.empty_append] at hfront
  exact hfront

/-! ## Packages -/

/-- Packages are made of letters, digits and underscores, with points between. -/
theorem isWordChar_or_eq_point_of_mem_package {package : String}
    (h : Settings.isPackage package = true) : ∀ c ∈ package.toList, isWordChar c ∨ c = '.' := by
  intro c hc
  rcases eq_or_mem_piece '.' hc with rfl | ⟨segment, hsegment, hc⟩
  · exact .inr rfl
  · have hvalid : Settings.isPackageSegment segment = true := List.all_eq_true.mp h _ hsegment
    cases segment with
    | nil => cases hc
    | cons d rest =>
      obtain ⟨hd, hrest⟩ := Bool.and_eq_true_iff.mp hvalid
      rcases List.mem_cons.mp hc with rfl | hc
      · refine .inl ?_
        simp only [isWordChar, Char.isAlphanum, Bool.or_eq_true] at hd ⊢
        tauto
      · exact .inl (List.all_eq_true.mp hrest c hc)

/-- The name of a package has no brackets, so it cannot be taken for type arguments. -/
theorem bracket_notMem_package {package : String} (h : Settings.isPackage package = true) :
    '<' ∉ package.toList := by
  intro hc
  rcases isWordChar_or_eq_point_of_mem_package h _ hc with hword | hpoint
  · exact absurd hword (by decide)
  · exact absurd hpoint (by decide)

/-! ## Erasure -/

/-- Erasure keeps what stands before the type arguments. -/
theorem toList_erasure (javaType : String) :
    (erasure javaType).toList = javaType.toList.takeWhile (· ≠ '<') :=
  String.toList_ofList ..

/-- A type without parameters is its own erasure. -/
theorem erasure_eq_self {javaType : String} (h : '<' ∉ javaType.toList) :
    erasure javaType = javaType := by
  have hall : javaType.toList.takeWhile (· ≠ '<') = javaType.toList := by
    rw [List.takeWhile_eq_self_iff]
    intro c hc
    exact decide_eq_true fun heq => h (heq ▸ hc)
  rw [erasure, hall, String.ofList_toList]

/-- A model has no type arguments. -/
theorem erasure_modelClass (entity : String) : erasure (modelClass entity) = modelClass entity := by
  refine erasure_eq_self fun hc => ?_
  rw [modelClass, String.toList_append, List.mem_append] at hc
  rcases hc with hc | hc
  · exact absurd (isWordChar_of_mem_typeName _ hc) (by decide)
  · exact absurd hc (by decide)

theorem erasure_modelClass_inj {a b : String} :
    erasure (modelClass a) = erasure (modelClass b) ↔ typeName a = typeName b := by
  rw [erasure_modelClass, erasure_modelClass, modelClass_inj]

/-- A qualified name is not that of the class of any entity: a point stands in it. -/
theorem erasure_ne_of_point {javaType : String} (front rest : List Char)
    (h : javaType.toList = front ++ '.' :: rest) (hfront : '<' ∉ front) :
    erasure javaType ≠ genericClass := by
  intro heq
  have hpoint : '.' ∈ (erasure javaType).toList := by
    have hall : ∀ c ∈ front, decide (c ≠ '<') = true :=
      fun c hc => decide_eq_true fun heq => hfront (heq ▸ hc)
    rw [toList_erasure, h, List.takeWhile_append_of_pos hall, List.takeWhile_cons_of_pos (by decide)]
    simp
  rw [heq] at hpoint
  exact absurd hpoint (by decide)

/-- No scalar is taken for an entity of any type. -/
theorem erasure_scalarType_ne {fieldType : FieldType} (h : fieldType ≠ .reference) :
    erasure (scalarType fieldType) ≠ genericClass := by
  cases fieldType <;> first | exact absurd rfl h | decide

/-- A type that is given as a model: that of one entity type or that of any. -/
def TypeExpr.isModel : TypeExpr → Bool
  | .model _ | .generic => true
  | _ => false

/-- A model is one of some type or of any type. -/
theorem TypeExpr.eq_generic_or_model {t : TypeExpr} (h : t.isModel) :
    t = .generic ∨ ∃ entity, t = .model entity := by
  cases t with
  | generic => exact .inl rfl
  | model entity => exact .inr ⟨entity, rfl⟩
  | _ => cases h

theorem erasure_genericClass : erasure genericClass = genericClass := by decide

/-- Scalars, phases, values of lists and collections are not erased to the class of any entity. -/
theorem erasure_ne_genericClass {package : String} (hpackage : Settings.isPackage package = true)
    {t : TypeExpr} (hmodel : t.isModel = false)
    (hscalar : ∀ javaType, t = .scalar javaType →
      ∃ fieldType ≠ FieldType.reference, javaType = scalarType fieldType) :
    erasure (t.text package) ≠ genericClass := by
  have hbracket := bracket_notMem_package hpackage
  -- what is not a scalar has a qualified name, below the package or below `java`
  cases t with
  | scalar javaType =>
    obtain ⟨fieldType, hne, rfl⟩ := hscalar javaType rfl
    exact erasure_scalarType_ne hne
  | model entity => cases hmodel
  | generic => cases hmodel
  | list identifier multiple =>
    cases multiple with
    | false =>
      refine erasure_ne_of_point _ ("enums.lists.".toList ++ identifier.toList) ?_ hbracket
      show (package ++ ".enums.lists." ++ identifier).toList = _
      rw [String.toList_append, String.toList_append, List.append_assoc]
      rfl
    | true =>
      refine erasure_ne_of_point "java".toList
        ("util.Collection<".toList ++ ((listClass package identifier).toList ++ ['>'])) ?_
        (by decide)
      show ("java.util.Collection<" ++ listClass package identifier ++ ">").toList = _
      rw [String.toList_append, String.toList_append, List.append_assoc]
      rfl
  | phase key =>
    refine erasure_ne_of_point _ ("enums.Phases.".toList ++ (phaseEnum key).toList) ?_ hbracket
    show (package ++ ".enums.Phases." ++ phaseEnum key).toList = _
    rw [String.toList_append, String.toList_append, List.append_assoc]
    rfl
  | collection entity =>
    cases entity with
    | none =>
      refine erasure_ne_of_point "java".toList "util.Collection<? extends Entity>".toList ?_
        (by decide)
      show "java.util.Collection<? extends Entity>".toList = _
      rfl
    | some entity =>
      refine erasure_ne_of_point "java".toList
        ("util.Collection<? extends ".toList ++ ((interfaceName entity).toList ++ ['>'])) ?_
        (by decide)
      show ("java.util.Collection<? extends " ++ interfaceName entity ++ ">").toList = _
      rw [String.toList_append, String.toList_append, List.append_assoc]
      rfl

end TypedEntities.Java
