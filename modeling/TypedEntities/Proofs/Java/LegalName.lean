import Mathlib
import TypedEntities.Proofs.Java.Member
import TypedEntities.Proofs.Java.NormalForm

/-!
# Legal names of types and members

What a type may be called here is said by `IsTypeIdentifier`, what a member may be called by
`IsMemberIdentifier`. Type names are the normal forms of server names, as constants are those of
display names: `typeName_of_isTypeIdentifier`. Every server name gives legal names, and the type name
is empty only if nothing is left of the server name: `legalNames`.
-/

namespace TypedEntities.Java

open TypedEntities.Text

/-! ## Names of types -/

/-- A text that names a type, or the empty one: letters and digits that begin with a capital, or an
underscore before a digit that begins them. -/
structure IsTypeIdentifier (name : String) : Prop where
  chars : ∀ c ∈ name.toList, isWordChar c
  /-- An underscore comes first, and a digit comes after it. -/
  underscore : ∀ before after, name.toList = before ++ '_' :: after →
    before = [] ∧ ∃ d rest, after = d :: rest ∧ d.isDigit
  head : ∀ c ∈ name.toList.head?, c.isDigit = false ∧ c.isLower = false

/-- What is made of a text is empty exactly if there are no letters and digits in it. -/
theorem capitalizeRuns_eq_nil_iff {start : Bool} {text : List Char} :
    capitalizeRuns start text = [] ↔ ∀ c ∈ text, c.isAlphanum = false := by
  induction text generalizing start with
  | nil => simp [capitalizeRuns]
  | cons c rest ih =>
    rw [capitalizeRuns, List.forall_mem_cons]
    split
    next h => simp [h]
    next h => rw [ih, and_iff_right (Bool.eq_false_iff.mpr h)]

/-- A guard makes nothing of nothing. -/
theorem guardDigit_eq_nil_iff {text : List Char} : guardDigit text = [] ↔ text = [] := by
  cases text with
  | nil => exact iff_of_true rfl rfl
  | cons c rest =>
    rw [guardDigit_cons]
    split <;> simp

/-- A type name is empty only if no letter or digit is left of the text. -/
theorem typeName_eq_empty_iff {text : String} :
    typeName text = "" ↔ ∀ c ∈ stripAccents text.toList, c.isAlphanum = false := by
  rw [← String.toList_eq_nil_iff, typeName, String.toList_ofList, typeChars, guardDigit_eq_nil_iff,
    capitalizeRuns_eq_nil_iff]

theorem isTypeIdentifier_typeName (text : String) : IsTypeIdentifier (typeName text) where
  chars := isWordChar_of_mem_typeName
  underscore := by
    intro before after h
    rw [typeName, String.toList_ofList, typeChars] at h
    have hruns : ∀ c ∈ capitalizeRuns true (stripAccents text.toList), c.isAlphanum :=
      isAlphanum_of_mem_capitalizeRuns
    generalize capitalizeRuns true (stripAccents text.toList) = runs at h hruns
    cases runs with
    | nil => simp [guardDigit] at h
    | cons d rest =>
      have hnone : ∀ front, d :: rest ≠ front ++ '_' :: after := fun front heq =>
        underscore_notMem hruns (heq ▸ List.mem_append_right _ (List.mem_cons_self ..))
      rw [guardDigit_cons] at h
      split at h
      next hd =>
        -- the only underscore is the one that guards the digit
        cases before with
        | nil => exact ⟨rfl, d, rest, (List.cons.inj h).2.symm, hd⟩
        | cons c front => exact absurd (List.cons.inj h).2 (hnone front)
      next => exact absurd h (hnone before)
  head := by
    intro c hc
    rw [typeName, String.toList_ofList] at hc
    have hname := isTypeName_typeChars text.toList
    cases hchars : typeChars text.toList with
    | nil => simp [hchars] at hc
    | cons d rest =>
      rw [hchars] at hc hname
      obtain rfl : d = c := Option.some.inj hc
      have hd := hname.1
      rw [isUpper_iff_toNat, eq_underscore_iff_toNat] at hd
      rw [Bool.eq_false_iff, Bool.eq_false_iff, ne_eq, ne_eq, isDigit_iff_toNat, isLower_iff_toNat]
      omega

/-! ### Names of types as normal forms -/

theorem capitalizeRuns_of_isAlphanum {text : List Char} (h : ∀ c ∈ text, c.isAlphanum) :
    capitalizeRuns false text = text := by
  induction text with
  | nil => rfl
  | cons c rest ih =>
    obtain ⟨hc, hrest⟩ := List.forall_mem_cons.mp h
    rw [capitalizeRuns, if_pos hc, if_neg (by simp), ih hrest]

/-- A run that begins with no small letter stays as it is. -/
theorem capitalizeRuns_of_head {c : Char} {rest : List Char} (hc : c.isAlphanum)
    (hlower : c.isLower = false) (hrest : ∀ d ∈ rest, d.isAlphanum) :
    capitalizeRuns true (c :: rest) = c :: rest := by
  have hupper : c.toUpper = c := by
    rw [Bool.eq_false_iff, ne_eq, isLower_iff_toNat] at hlower
    rw [← Char.toNat_inj, toNat_toUpper, if_neg hlower]
  rw [capitalizeRuns, if_pos hc, if_pos rfl, hupper, capitalizeRuns_of_isAlphanum hrest]

theorem IsTypeIdentifier.isAlphanum_of_mem {name : String} (h : IsTypeIdentifier name)
    {before after : List Char} (hname : name.toList = before ++ after) (hbefore : before ≠ []) :
    ∀ c ∈ after, c.isAlphanum := by
  intro c hc
  have hword := h.chars c (hname ▸ List.mem_append_right _ hc)
  rw [isWordChar, Bool.or_eq_true, beq_iff_eq] at hword
  refine hword.resolve_right ?_
  rintro rfl
  obtain ⟨front, back, rfl⟩ := List.append_of_mem hc
  have hempty := (h.underscore (before ++ front) back (by rw [hname, List.append_assoc])).1
  exact hbefore (List.append_eq_nil_iff.mp hempty).1

/-- A name of a type is its own type name. -/
theorem typeName_of_isTypeIdentifier {name : String} (h : IsTypeIdentifier name) :
    typeName name = name := by
  have hascii : ∀ c ∈ name.toList, c.toNat < 0x80 := by
    intro c hc
    have hword := h.chars c hc
    rw [isWordChar_iff_toNat] at hword
    omega
  rw [← String.toList_inj, typeName, String.toList_ofList, typeChars, stripAccents_of_ascii hascii]
  cases hname : name.toList with
  | nil => rfl
  | cons c rest =>
    obtain ⟨hdigit, hlower⟩ := h.head c (by rw [hname]; rfl)
    have hrest : ∀ d ∈ rest, d.isAlphanum :=
      h.isAlphanum_of_mem (hname.trans (List.singleton_append ..).symm) (List.cons_ne_nil _ _)
    have hword := h.chars c (hname ▸ List.mem_cons_self ..)
    rw [isWordChar, Bool.or_eq_true, beq_iff_eq] at hword
    rcases hword with hc | rfl
    · rw [capitalizeRuns_of_head hc hlower hrest, guardDigit_cons, if_neg (by simp [hdigit])]
    · -- the underscore is dropped, and put back before the digit that comes after it
      obtain ⟨-, d, tail, rfl, hd⟩ := h.underscore [] rest (by rw [hname]; rfl)
      have hsmall : d.isLower = false := by
        rw [isDigit_iff_toNat] at hd
        rw [Bool.eq_false_iff, ne_eq, isLower_iff_toNat]
        omega
      obtain ⟨hfirst, htail⟩ := List.forall_mem_cons.mp hrest
      rw [capitalizeRuns, if_neg (by decide), capitalizeRuns_of_head hfirst hsmall htail,
        guardDigit_cons, if_pos hd]

/-! ## Names of members -/

/-- A text that names a member: letters, digits and underscores that begin with a small letter or an
underscore, and no word that is reserved. -/
structure IsMemberIdentifier (name : String) : Prop where
  chars : ∀ c ∈ name.toList, isWordChar c
  ne_nil : name.toList ≠ []
  head : ∀ c ∈ name.toList.head?, c.isDigit = false ∧ c.isUpper = false
  notReserved : name ∉ reservedWords

/-- The characters of a member before it is looked up among the reserved words. -/
theorem lowerFirst_legal {name : List Char} (h : IsTypeName name) :
    (∀ c ∈ lowerFirst name, isWordChar c) ∧ lowerFirst name ≠ []
      ∧ ∀ c ∈ (lowerFirst name).head?, c.isDigit = false ∧ c.isUpper = false := by
  cases name with
  | nil =>
    have hfield : lowerFirst [] = ['f', 'i', 'e', 'l', 'd', '_'] := by decide
    rw [hfield]
    refine ⟨List.all_eq_true.mp (by decide), by decide, fun c hc => ?_⟩
    obtain rfl : 'f' = c := Option.some.inj hc
    decide
  | cons d rest =>
    obtain ⟨hd, hrest⟩ := h
    -- the first character is a capital or an underscore, and neither is one in lower case
    rw [isUpper_iff_toNat, eq_underscore_iff_toNat] at hd
    have hlower := toNat_toLower d
    refine ⟨?_, List.cons_ne_nil _ _, ?_⟩
    · intro c hc
      rcases List.mem_cons.mp hc with rfl | hc
      · rw [isWordChar_iff_toNat, hlower]
        split <;> omega
      · rw [isWordChar, hrest c hc, Bool.true_or]
    · intro c hc
      obtain rfl : d.toLower = c := Option.some.inj hc
      rw [Bool.eq_false_iff, Bool.eq_false_iff, ne_eq, ne_eq, isDigit_iff_toNat, isUpper_iff_toNat,
        hlower]
      split <;> omega

/-- No reserved word has an underscore. -/
theorem underscore_notMem_reserved : ∀ word ∈ reservedWords, '_' ∉ word.toList := by decide +kernel

/-- A member name is an identifier, whatever the text is. -/
theorem isMemberIdentifier_memberName (text : String) : IsMemberIdentifier (memberName text) := by
  have hchars := toList_memberName text
  obtain ⟨hword, hne, hhead⟩ := lowerFirst_legal (isTypeName_typeChars text.toList)
  generalize lowerFirst (typeChars text.toList) = name at hchars hword hne hhead
  unfold afterReserved at hchars
  split at hchars
  next =>
    -- a reserved word gets an underscore behind it
    constructor
    case chars =>
      intro c hc
      rw [hchars] at hc
      rcases List.mem_append.mp hc with hc | hc
      · exact hword c hc
      · obtain rfl := List.mem_singleton.mp hc
        rfl
    case ne_nil => simp [hchars]
    case head =>
      intro c hc
      rw [hchars, List.head?_append_of_ne_nil _ hne] at hc
      exact hhead c hc
    case notReserved =>
      intro hmem
      refine underscore_notMem_reserved _ hmem ?_
      rw [hchars]
      exact List.mem_append_right _ (List.mem_singleton_self _)
  next hreserved =>
    -- any other name is left as it is
    have hname : memberName text = String.ofList name := by rw [← hchars, String.ofList_toList]
    rw [hname]
    constructor
    case chars => rwa [String.toList_ofList]
    case ne_nil => rwa [String.toList_ofList]
    case head => rwa [String.toList_ofList]
    case notReserved => exact hreserved

/-! ## Server names -/

/-- The names that are made of a server name are legal. -/
structure LegalNames (name : String) : Prop where
  isType : IsTypeIdentifier (typeName name)
  /-- The type name is empty exactly if no letter and no digit of ASCII is left without the accents. -/
  isEmpty : typeName name = "" ↔ ∀ c ∈ stripAccents name.toList, c.isAlphanum = false
  /-- Names of types stay as they are, and so does what is made of any name. -/
  fixed : IsTypeIdentifier name → typeName name = name
  again : typeName (typeName name) = typeName name
  isMember : IsMemberIdentifier (memberName name)

/-- **Types and members have legal names**, whatever the server calls them. -/
theorem legalNames (name : String) : LegalNames name where
  isType := isTypeIdentifier_typeName name
  isEmpty := typeName_eq_empty_iff
  fixed := typeName_of_isTypeIdentifier
  again := typeName_of_isTypeIdentifier (isTypeIdentifier_typeName name)
  isMember := isMemberIdentifier_memberName name

end TypedEntities.Java
