import Mathlib
import TypedEntities.Java.Distinct
import TypedEntities.Proofs.Listing

/-!
# Legal constants

What Java takes as the name of an enumeration constant here: upper-case letters, digits and
underscores, not starting with a digit, neither empty nor a single underscore. Every display name
gives such a constant (`isConstant_constantName`), and a number after two underscores keeps it one
(`IsConstant.numbered`).
-/

namespace TypedEntities.Java

open TypedEntities.Text

/-! ## Characters by their numbers -/

/-- Classes of characters are ranges of numbers, so that what is said of several classes at once is
arithmetic. -/
theorem isUpper_iff_toNat {c : Char} : c.isUpper ↔ 65 ≤ c.toNat ∧ c.toNat ≤ 90 := by
  simp [Char.isUpper, UInt32.le_iff_toNat_le]

theorem isLower_iff_toNat {c : Char} : c.isLower ↔ 97 ≤ c.toNat ∧ c.toNat ≤ 122 := by
  simp [Char.isLower, UInt32.le_iff_toNat_le]

theorem isDigit_iff_toNat {c : Char} : c.isDigit ↔ 48 ≤ c.toNat ∧ c.toNat ≤ 57 :=
  Char.isDigit_iff_toNat

theorem eq_underscore_iff_toNat {c : Char} : c = '_' ↔ c.toNat = 95 :=
  ⟨fun h => h ▸ rfl, fun h => Char.toNat_inj.mp h⟩

/-- Only small letters of ASCII change; their numbers go down by 32. -/
theorem toNat_toUpper (c : Char) :
    c.toUpper.toNat = if 97 ≤ c.toNat ∧ c.toNat ≤ 122 then c.toNat - 32 else c.toNat := by
  unfold Char.toUpper
  split
  next h =>
    rw [UInt32.le_iff_toNat_le, UInt32.le_iff_toNat_le] at h
    have h' : 97 ≤ c.toNat ∧ c.toNat ≤ 122 := h
    rw [if_pos h']
    show (c.val + 4294967264).toNat = c.toNat - 32
    rw [UInt32.toNat_add]
    show (c.toNat + 4294967264) % 2 ^ 32 = c.toNat - 32
    omega
  next h =>
    rw [UInt32.le_iff_toNat_le, UInt32.le_iff_toNat_le] at h
    have h' : ¬(97 ≤ c.toNat ∧ c.toNat ≤ 122) := h
    rw [if_neg h']

theorem isAlphanum_iff_toNat {c : Char} :
    c.isAlphanum ↔ (65 ≤ c.toNat ∧ c.toNat ≤ 90) ∨ (97 ≤ c.toNat ∧ c.toNat ≤ 122)
      ∨ (48 ≤ c.toNat ∧ c.toNat ≤ 57) := by
  simp only [Char.isAlphanum, Char.isAlpha, Bool.or_eq_true, isUpper_iff_toNat, isLower_iff_toNat,
    isDigit_iff_toNat]
  omega

theorem isWordChar_iff_toNat {c : Char} :
    isWordChar c ↔ (65 ≤ c.toNat ∧ c.toNat ≤ 90) ∨ (97 ≤ c.toNat ∧ c.toNat ≤ 122)
      ∨ (48 ≤ c.toNat ∧ c.toNat ≤ 57) ∨ c.toNat = 95 := by
  simp only [isWordChar, Bool.or_eq_true, beq_iff_eq, isAlphanum_iff_toNat, eq_underscore_iff_toNat]
  omega

/-! ## Constants -/

/-- Upper-case letters, digits and the underscore. -/
def isConstantChar (c : Char) : Bool := c.isUpper || c.isDigit || c == '_'

theorem isConstantChar_iff_toNat {c : Char} :
    isConstantChar c ↔ (65 ≤ c.toNat ∧ c.toNat ≤ 90) ∨ (48 ≤ c.toNat ∧ c.toNat ≤ 57)
      ∨ c.toNat = 95 := by
  simp only [isConstantChar, Bool.or_eq_true, beq_iff_eq, isUpper_iff_toNat, isDigit_iff_toNat,
    eq_underscore_iff_toNat]
  omega

/-- A text that can name an enumeration constant. -/
structure IsConstant (constant : String) : Prop where
  chars : ∀ c ∈ constant.toList, isConstantChar c
  ne_nil : constant.toList ≠ []
  head : ∀ c ∈ constant.toList.head?, c.isDigit = false
  ne_lone : constant.toList ≠ ['_']

/-- Upper case turns the characters of identifiers into those of constants. -/
theorem isConstantChar_toUpper {c : Char} (h : isWordChar c) : isConstantChar c.toUpper := by
  rw [isWordChar_iff_toNat] at h
  rw [isConstantChar_iff_toNat, toNat_toUpper]
  split <;> omega

/-- Upper case makes no digit of a letter. -/
theorem isDigit_toUpper {c : Char} (h : c.isDigit = false) : c.toUpper.isDigit = false := by
  rw [Bool.eq_false_iff, ne_eq, isDigit_iff_toNat] at h ⊢
  rw [toNat_toUpper]
  split <;> omega

/-- Only the first character decides. -/
theorem guardDigit_cons (c : Char) (rest : List Char) :
    guardDigit (c :: rest) = if c.isDigit then '_' :: c :: rest else c :: rest := rfl

/-- The guard puts an underscore before a text or finds no digit at its start. -/
theorem guardDigit_cases (text : List Char) :
    guardDigit text = '_' :: text
      ∨ guardDigit text = text ∧ ∀ c ∈ text.head?, c.isDigit = false := by
  cases text with
  | nil => exact .inr ⟨rfl, by simp⟩
  | cons d rest =>
    rw [guardDigit_cons]
    split
    next => exact .inl rfl
    next hd =>
      refine .inr ⟨rfl, fun c hc => ?_⟩
      obtain rfl : d = c := Option.some.inj hc
      exact Bool.eq_false_iff.mpr hd

/-- After the guard a text does not start with a digit. -/
theorem head?_guardDigit (text : List Char) : ∀ c ∈ (guardDigit text).head?, c.isDigit = false := by
  rcases guardDigit_cases text with hguard | ⟨hguard, hhead⟩
  · rw [hguard]
    intro c hc
    obtain rfl : '_' = c := Option.some.inj hc
    rfl
  · rwa [hguard]

/-- A guard is a character of words itself. -/
theorem isWordChar_of_mem_guardDigit {text : List Char} (h : ∀ c ∈ text, isWordChar c) :
    ∀ c ∈ guardDigit text, isWordChar c := by
  rcases guardDigit_cases text with hguard | ⟨hguard, -⟩
  · rw [hguard]
    exact List.forall_mem_cons.mpr ⟨rfl, h⟩
  · rwa [hguard]

/-- The constant before the empty name and the single underscore are replaced. -/
theorem isConstant_replaceLone {text : List Char} (hchars : ∀ c ∈ text, isConstantChar c)
    (hhead : ∀ c ∈ text.head?, c.isDigit = false) :
    IsConstant (String.ofList (replaceLone text)) := by
  unfold replaceLone
  split
  next => constructor <;> simp [isConstantChar, Char.isDigit]
  next h =>
    rw [not_or] at h
    constructor <;> rw [String.toList_ofList]
    · exact hchars
    · exact h.1
    · exact hhead
    · exact h.2

/-- Whatever the display name, its constant can name an enumeration constant. -/
theorem isConstant_constantName (name : String) : IsConstant (constantName name) := by
  unfold constantName constantChars
  apply isConstant_replaceLone
  · intro c hc
    obtain ⟨d, hd, rfl⟩ := List.mem_map.mp hc
    refine isConstantChar_toUpper (isWordChar_of_mem_guardDigit ?_ d hd)
    intro e he
    obtain ⟨a, -, rfl⟩ := List.mem_map.mp he
    split
    next h => exact h
    next => rfl
  · intro c hc
    rw [List.head?_map, Option.mem_map] at hc
    obtain ⟨d, hd, rfl⟩ := hc
    exact isDigit_toUpper (head?_guardDigit _ d hd)

/-! ## Numbered constants -/

/-- A number follows its base after two underscores. -/
theorem toList_numbered (base : String) (n : Nat) :
    (numbered base n).toList = base.toList ++ '_' :: '_' :: Nat.toDigits 10 n := by
  unfold numbered
  rw [String.toList_append, String.toList_append, List.append_assoc]
  show base.toList ++ ("__".toList ++ (String.ofList (Nat.toDigits 10 n)).toList) = _
  rw [String.toList_ofList, String.toList_ofList]
  rfl

/-- Different numbers give different constants. -/
theorem numbered_inj {base : String} {m n : Nat} : numbered base m = numbered base n ↔ m = n := by
  unfold numbered
  rw [String.append_right_inj]
  exact Nat.repr_inj

/-- A number can be read off its constant, since no digit is an underscore. -/
theorem numbered_inj_iff {base base' : String} {m n : Nat} :
    numbered base m = numbered base' n ↔ base = base' ∧ m = n := by
  constructor
  · intro h
    have hdigits : ∀ k, '_' ∉ Nat.toDigits 10 k := fun k hmem =>
      absurd (Nat.isDigit_of_mem_toDigits (by omega) (by omega) hmem) (by decide)
    have hlist := congrArg String.toList h
    rw [toList_numbered, toList_numbered] at hlist
    have hcut : (base.toList ++ ['_']) ++ '_' :: Nat.toDigits 10 m
        = (base'.toList ++ ['_']) ++ '_' :: Nat.toDigits 10 n := by simpa using hlist
    obtain ⟨hbase, -⟩ := eq_of_append_cons_eq (hdigits m) (hdigits n) hcut
    obtain rfl : base = base' := String.toList_inj.mp (List.append_cancel_right hbase)
    exact ⟨rfl, numbered_inj.mp h⟩
  · rintro ⟨rfl, rfl⟩
    rfl

/-- A number always makes a difference. -/
theorem numbered_ne {base : String} {k : Nat} : numbered base k ≠ base := by
  intro h
  have hlength := congrArg (fun text => text.toList.length) h
  simp only [toList_numbered, List.length_append, List.length_cons] at hlength
  omega

/-- A constant with a number is a constant. -/
theorem IsConstant.numbered {base : String} (h : IsConstant base) (n : Nat) :
    IsConstant (numbered base n) := by
  obtain ⟨c, rest, hbase⟩ := List.exists_cons_of_ne_nil h.ne_nil
  constructor <;> rw [toList_numbered]
  · intro d hd
    rcases List.mem_append.mp hd with hd | hd
    · exact h.chars d hd
    · rcases List.mem_cons.mp hd with rfl | hd
      · rfl
      · rcases List.mem_cons.mp hd with rfl | hd
        · rfl
        · -- what is put behind the two underscores is decimal
          have := Nat.isDigit_of_mem_toDigits (by omega) (by omega) hd
          simp [isConstantChar, this]
  · simp
  · intro d hd
    refine h.head d ?_
    rw [hbase] at hd ⊢
    exact hd
  · rw [hbase]
    simp

end TypedEntities.Java
