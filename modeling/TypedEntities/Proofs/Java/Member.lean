import Mathlib
import TypedEntities.Proofs.Java.TypeExpr

/-!
# Names of members

The name of a member is the type name with a small first letter, `field_` if the type name is empty,
and has an underscore more if it is a reserved word. A type name has an underscore at most in front,
so neither of these ways can meet another: names of members are the same exactly if the type names
are (`memberName_inj`).
-/

namespace TypedEntities.Java

open TypedEntities.Text

/-! ## The shape of type names -/

/-- Only capitals of ASCII change; their numbers go up by 32. -/
theorem toNat_toLower (c : Char) :
    c.toLower.toNat = if 65 ≤ c.toNat ∧ c.toNat ≤ 90 then c.toNat + 32 else c.toNat := by
  unfold Char.toLower
  split
  next h =>
    rw [ge_iff_le, UInt32.le_iff_toNat_le, UInt32.le_iff_toNat_le] at h
    have h' : 65 ≤ c.toNat ∧ c.toNat ≤ 90 := h
    rw [if_pos h']
    show (c.val + 32).toNat = c.toNat + 32
    rw [UInt32.toNat_add]
    show (c.toNat + 32) % 2 ^ 32 = c.toNat + 32
    omega
  next h =>
    rw [ge_iff_le, UInt32.le_iff_toNat_le, UInt32.le_iff_toNat_le] at h
    have h' : ¬(65 ≤ c.toNat ∧ c.toNat ≤ 90) := h
    rw [if_neg h']

/-- A capital or an underscore, then letters and digits; or nothing at all. -/
def IsTypeName : List Char → Prop
  | [] => True
  | c :: rest => (c.isUpper ∨ c = '_') ∧ ∀ d ∈ rest, d.isAlphanum

/-- What starts a run is no small letter. -/
theorem head?_capitalizeRuns (text : List Char) :
    ∀ c ∈ (capitalizeRuns true text).head?, c.isUpper ∨ c.isDigit := by
  induction text with
  | nil => simp [capitalizeRuns]
  | cons d rest ih =>
    intro c hc
    unfold capitalizeRuns at hc
    split at hc
    next hd =>
      obtain rfl : d.toUpper = c := Option.some.inj hc
      rw [isAlphanum_iff_toNat] at hd
      rw [isUpper_iff_toNat, isDigit_iff_toNat, toNat_toUpper]
      split <;> omega
    next => exact ih c hc

theorem isTypeName_typeChars (text : List Char) : IsTypeName (typeChars text) := by
  unfold typeChars
  have hhead := head?_capitalizeRuns (stripAccents text)
  have hruns : ∀ c ∈ capitalizeRuns true (stripAccents text), c.isAlphanum :=
    isAlphanum_of_mem_capitalizeRuns
  generalize capitalizeRuns true (stripAccents text) = runs at hhead hruns
  cases runs with
  | nil => trivial
  | cons d rest =>
    rw [guardDigit_cons]
    split
    next => exact ⟨.inr rfl, hruns⟩
    next hd =>
      have hupper := (hhead d rfl).resolve_right hd
      exact ⟨.inl hupper, (List.forall_mem_cons.mp hruns).2⟩

/-! ## The small letter and the underscore -/

/-- A reserved word with an underscore behind it, and any other name as it is. -/
def afterReserved (name : List Char) : List Char :=
  if String.ofList name ∈ reservedWords then name ++ ['_'] else name

theorem toList_memberName (text : String) :
    (memberName text).toList = afterReserved (lowerFirst (typeChars text.toList)) := by
  unfold memberName afterReserved
  simp only
  split
  next => rw [String.toList_push, String.toList_ofList]
  next => rw [String.toList_ofList]

theorem underscore_notMem {rest : List Char} (h : ∀ d ∈ rest, d.isAlphanum) : '_' ∉ rest :=
  fun hmem => absurd (h _ hmem) (by decide)

/-- The small first letter can be undone, as no type name is `Field_`. -/
theorem lowerFirst_inj {name name' : List Char} (h : IsTypeName name) (h' : IsTypeName name')
    (heq : lowerFirst name = lowerFirst name') : name = name' := by
  match name, name' with
  | [], [] => rfl
  -- `field_` has an underscore behind its first letter, and no type name has one there
  | [], d :: rest =>
    obtain ⟨-, htail⟩ := List.cons_eq_cons.mp heq
    exact absurd (htail ▸ by decide) (underscore_notMem h'.2)
  | c :: rest, [] =>
    obtain ⟨-, htail⟩ := List.cons_eq_cons.mp heq
    exact absurd (htail ▸ by decide) (underscore_notMem h.2)
  | c :: rest, d :: rest' =>
    obtain ⟨hlower, rfl⟩ := List.cons_eq_cons.mp heq
    -- capitals go up by 32, and none of them meets the underscore, which stays
    have hnat : c.toLower.toNat = d.toLower.toNat := congrArg Char.toNat hlower
    obtain ⟨hc, -⟩ := h
    obtain ⟨hd, -⟩ := h'
    rw [isUpper_iff_toNat, eq_underscore_iff_toNat] at hc hd
    rw [toNat_toLower, toNat_toLower] at hnat
    have hsame : c.toNat = d.toNat := by
      split at hnat <;> split at hnat <;> omega
    rw [Char.toNat_inj.mp hsame]

/-- No type name gives a reserved word with an underscore. -/
theorem lowerFirst_ne_reserved {word : List Char} (hword : String.ofList word ∈ reservedWords)
    {name : List Char} (h : IsTypeName name) : lowerFirst name ≠ word ++ ['_'] := by
  intro heq
  match name with
  | [] =>
    -- the name is `field_`, but `field` is not reserved
    have hfield : word = "field".toList := (List.append_cancel_right heq).symm
    rw [hfield] at hword
    exact absurd hword (by decide)
  | c :: rest =>
    cases word with
    | nil => exact absurd hword (by decide)
    | cons d tail =>
      -- the underscore would stand behind the first letter of the type name
      obtain ⟨-, rfl⟩ := List.cons_eq_cons.mp heq
      exact underscore_notMem h.2 (List.mem_append_right _ (List.mem_singleton_self _))

theorem afterReserved_lowerFirst_inj {name name' : List Char} (h : IsTypeName name)
    (h' : IsTypeName name')
    (heq : afterReserved (lowerFirst name) = afterReserved (lowerFirst name')) :
    name = name' := by
  unfold afterReserved at heq
  split at heq
  next hword =>
    split at heq
    next => exact lowerFirst_inj h h' (List.append_cancel_right heq)
    next => exact absurd heq.symm (lowerFirst_ne_reserved hword h')
  next =>
    split at heq
    next hword' => exact absurd heq (lowerFirst_ne_reserved hword' h)
    next => exact lowerFirst_inj h h' heq

/-- **Members are told apart as well as types are.** -/
theorem memberName_inj {a b : String} : memberName a = memberName b ↔ typeName a = typeName b := by
  rw [← String.toList_inj, ← String.toList_inj, toList_memberName, toList_memberName, typeName,
    typeName, String.toList_ofList, String.toList_ofList]
  constructor
  · exact afterReserved_lowerFirst_inj (isTypeName_typeChars _) (isTypeName_typeChars _)
  · intro heq
    rw [heq]

end TypedEntities.Java
