import Mathlib
import TypedEntities.Proofs.Java.Constant

/-!
# Constants as normal forms

The constant of a constant is the constant itself (`constantName_of_isConstant`), so the constants
are the normal forms of names. Which one a name has depends on the letters of its decomposition
without marks, in upper case, and on nothing else (`constantChars_eq`): names that differ by marks,
or by the case of letters of ASCII, have the same. `isNormalForm_constantName` puts both together.
-/

namespace TypedEntities.Java

open TypedEntities.Text

/-! ## Constants of constants -/

/-- Constants are made of characters of words. -/
theorem isWordChar_of_isConstantChar {c : Char} (h : isConstantChar c) : isWordChar c := by
  rw [isConstantChar_iff_toNat] at h
  rw [isWordChar_iff_toNat]
  omega

/-- They are in upper case already. -/
theorem toUpper_of_isConstantChar {c : Char} (h : isConstantChar c) : c.toUpper = c := by
  rw [isConstantChar_iff_toNat] at h
  rw [← Char.toNat_inj, toNat_toUpper, if_neg (by omega)]

theorem toNat_lt_of_isConstantChar {c : Char} (h : isConstantChar c) : c.toNat < 0x80 := by
  rw [isConstantChar_iff_toNat] at h
  omega

/-- A text that begins with no digit needs no guard. -/
theorem guardDigit_of_head? {text : List Char} (h : ∀ c ∈ text.head?, c.isDigit = false) :
    guardDigit text = text := by
  cases text with
  | nil => rfl
  | cons c rest => rw [guardDigit_cons, if_neg (by simp [h c rfl])]

/-- A constant is its own constant: none of the steps finds anything to change. -/
theorem constantName_of_isConstant {constant : String} (h : IsConstant constant) :
    constantName constant = constant := by
  have hstrip : stripAccents constant.toList = constant.toList :=
    stripAccents_of_ascii fun c hc => toNat_lt_of_isConstantChar (h.chars c hc)
  have hwords : (constant.toList.map fun c => if isWordChar c then c else '_') = constant.toList := by
    rw [List.map_congr_left fun c hc => if_pos (isWordChar_of_isConstantChar (h.chars c hc))]
    exact List.map_id _
  have hupper : constant.toList.map Char.toUpper = constant.toList := by
    rw [List.map_congr_left fun c hc => toUpper_of_isConstantChar (h.chars c hc)]
    exact List.map_id _
  have hlone : replaceLone constant.toList = constant.toList :=
    if_neg (not_or.mpr ⟨h.ne_nil, h.ne_lone⟩)
  unfold constantName constantChars
  rw [hstrip, hwords, guardDigit_of_head? h.head, hupper, hlone, String.ofList_toList]

/-! ## What a constant depends on -/

theorem isDigit_toUpper_eq (c : Char) : c.toUpper.isDigit = c.isDigit := by
  rw [Bool.eq_iff_iff, isDigit_iff_toNat, isDigit_iff_toNat, toNat_toUpper]
  split <;> omega

theorem isWordChar_toUpper_eq (c : Char) : isWordChar c.toUpper = isWordChar c := by
  rw [Bool.eq_iff_iff, isWordChar_iff_toNat, isWordChar_iff_toNat, toNat_toUpper]
  split <;> omega

/-- Only letters of ASCII change to upper case, and none of them is a mark. -/
theorem isMark_toUpper_eq (c : Char) : isMark c.toUpper = isMark c := by
  by_cases hc : c.toNat < 0x300
  · have hupper : c.toUpper.toNat < 0x300 := by
      rw [toNat_toUpper]
      split <;> omega
    rw [isMark_eq_false_of_lt hc, isMark_eq_false_of_lt hupper]
  · have hsame : c.toUpper = c := by
      rw [← Char.toNat_inj, toNat_toUpper, if_neg (by omega)]
    rw [hsame]

/-- It makes no difference whether a text is guarded before or after it is put in upper case. -/
theorem map_toUpper_guardDigit (text : List Char) :
    (guardDigit text).map Char.toUpper = guardDigit (text.map Char.toUpper) := by
  cases text with
  | nil => rfl
  | cons c rest =>
    rw [List.map_cons, guardDigit_cons, guardDigit_cons, isDigit_toUpper_eq]
    split
    next => rfl
    next => rfl

/-- The letters that a name is made of: its decomposition without marks, in upper case. -/
def baseLetters (text : List Char) : List Char := (stripAccents text).map Char.toUpper

/-- The constant is made from the letters of the name alone. -/
theorem constantChars_eq (text : List Char) :
    constantChars text = replaceLone
      (guardDigit ((baseLetters text).map fun c => if isWordChar c then c else '_')) := by
  -- the upper case may come first, since no later step looks at the case of a letter
  have hletter : ∀ c : Char, (if isWordChar c then c else '_').toUpper
      = if isWordChar c.toUpper then c.toUpper else '_' := by
    intro c
    rw [isWordChar_toUpper_eq]
    split
    next => rfl
    next => rfl
  unfold constantChars baseLetters
  rw [map_toUpper_guardDigit, List.map_map, List.map_map]
  exact congrArg (fun letters => replaceLone (guardDigit letters))
    (List.map_congr_left fun c _ => hletter c)

/-! ## Names that look alike -/

/-- The same character, or the same letter of ASCII in both cases. -/
def SameLetter (c d : Char) : Prop := c.toUpper = d.toUpper

/-- One text becomes the other when marks are put in or left out anywhere, and letters of ASCII are
written in the other case. -/
inductive Restyled : List Char → List Char → Prop
  | nil : Restyled [] []
  | letter {c d : Char} {s t : List Char} : SameLetter c d → Restyled s t →
    Restyled (c :: s) (d :: t)
  | markLeft {m : Char} {s t : List Char} : isMark m → Restyled s t → Restyled (m :: s) t
  | markRight {m : Char} {s t : List Char} : isMark m → Restyled s t → Restyled s (m :: t)

theorem Restyled.refl (text : List Char) : Restyled text text := by
  induction text with
  | nil => exact .nil
  | cons c rest ih => exact .letter rfl ih

/-- Texts are restyled piece by piece. -/
theorem Restyled.append {s t s' t' : List Char} (h : Restyled s t) (h' : Restyled s' t') :
    Restyled (s ++ s') (t ++ t') := by
  induction h with
  | nil => exact h'
  | letter hletter _ ih => exact .letter hletter ih
  | markLeft hm _ ih => exact .markLeft hm ih
  | markRight hm _ ih => exact .markRight hm ih

/-- Without marks and in upper case nothing is left of the difference. -/
theorem Restyled.letters_eq {s t : List Char} (h : Restyled s t) :
    (s.filter fun c => !isMark c).map Char.toUpper
      = (t.filter fun c => !isMark c).map Char.toUpper := by
  induction h with
  | nil => rfl
  | letter hletter _ ih =>
    have hmark := congrArg isMark hletter
    rw [isMark_toUpper_eq, isMark_toUpper_eq] at hmark
    rw [List.filter_cons, List.filter_cons, hmark]
    split
    next => exact congrArg₂ List.cons hletter ih
    next => exact ih
  | markLeft hm _ ih => rwa [List.filter_cons_of_neg (by simp [hm])]
  | markRight hm _ ih => rwa [List.filter_cons_of_neg (by simp [hm])]

/-- A letter of ASCII is its own decomposition in either case. -/
theorem SameLetter.eq_or_ascii {c d : Char} (h : SameLetter c d) :
    c = d ∨ c.toNat < 0x80 ∧ d.toNat < 0x80 := by
  have hnat := congrArg Char.toNat h
  rw [toNat_toUpper, toNat_toUpper] at hnat
  rw [← Char.toNat_inj]
  split at hnat <;> split at hnat <;> omega

/-- Texts that differ by the case of letters have such decompositions. -/
theorem restyled_decompose {s t : List Char} (h : List.Forall₂ SameLetter s t) :
    Restyled (decompose s) (decompose t) := by
  induction h with
  | nil => exact .nil
  | @cons c d s t hletter _ ih =>
    have hchar : Restyled (decomposeChar c) (decomposeChar d) := by
      rcases hletter.eq_or_ascii with rfl | ⟨hc, hd⟩
      · exact .refl _
      · rw [decomposeChar_of_ascii hc, decomposeChar_of_ascii hd]
        exact .letter hletter .nil
    exact hchar.append ih

/-- Names that differ in style alone come to the same constant. -/
theorem constantName_eq_of_restyled {a b : String}
    (h : Restyled (decompose a.toList) (decompose b.toList)) : constantName a = constantName b := by
  have hbase : baseLetters a.toList = baseLetters b.toList := h.letters_eq
  unfold constantName
  rw [constantChars_eq, constantChars_eq, hbase]

/-! ## Normal forms -/

/-- A function that gives names their normal forms: every result is a constant, constants stay as
they are, and names that look alike get the same. -/
structure IsNormalForm (normal : String → String) : Prop where
  isConstant : ∀ name, IsConstant (normal name)
  fixed : ∀ constant, IsConstant constant → normal constant = constant
  idempotent : ∀ name, normal (normal name) = normal name
  /-- Marks may be put into the decompositions anywhere. -/
  marks : ∀ a b : String, Restyled (decompose a.toList) (decompose b.toList) → normal a = normal b
  /-- The case of the letters of ASCII does not count. -/
  letters : ∀ a b : String, List.Forall₂ SameLetter a.toList b.toList → normal a = normal b

/-- **Constants are the normal forms of names.** Every Unicode text has one, and a second look at it
changes nothing. -/
theorem isNormalForm_constantName : IsNormalForm constantName where
  isConstant := isConstant_constantName
  fixed _ h := constantName_of_isConstant h
  idempotent name := constantName_of_isConstant (isConstant_constantName name)
  marks _ _ h := constantName_eq_of_restyled h
  letters _ _ h := constantName_eq_of_restyled (restyled_decompose h)

end TypedEntities.Java
