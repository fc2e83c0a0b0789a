/-!
# Blank characters and sequences of texts

The characters with the White_Space property, and `trim`, which takes them from both ends of a text.

Sequences of texts are ordered by the first texts that differ; a sequence that ends comes before those
that go on. Names with ids and the parts of paths are sorted by it.
-/

namespace TypedEntities.Text

/-- Whether a character has the White_Space property. -/
def isBlank (c : Char) : Bool :=
  let n := c.toNat
  (9 ≤ n && n ≤ 13) || n = 0x20 || n = 0x85 || n = 0xA0 || n = 0x1680
    || (0x2000 ≤ n && n ≤ 0x200A) || n = 0x2028 || n = 0x2029 || n = 0x202F || n = 0x205F
    || n = 0x3000

/-- The text between the first and the last character that is not blank. -/
def trim (text : List Char) : List Char :=
  ((text.dropWhile isBlank).reverse.dropWhile isBlank).reverse

/-- The last run of `c` at the end of a text taken off. -/
def trimEnd (c : Char) (text : List Char) : List Char :=
  (text.reverse.dropWhile (· == c)).reverse

/-- A text from which `c` was taken off its end does not end in `c`. -/
theorem getLast?_trimEnd_ne (c : Char) (text : List Char) :
    (trimEnd c text).getLast? ≠ some c := by
  intro h
  rw [trimEnd, List.getLast?_reverse] at h
  have := List.head?_dropWhile_not (· == c) text.reverse
  rw [h] at this
  simp at this

end TypedEntities.Text

namespace TypedEntities

/-- A sequence of texts that things are sorted by. -/
structure Texts where
  list : List String
deriving DecidableEq, Repr, Inhabited

namespace Texts

instance : Coe Texts (List String) := ⟨list⟩

/-- The first texts that differ decide. -/
instance : LT Texts := ⟨fun a b => @LT.lt (List String) List.instLT a.list b.list⟩

instance : LE Texts := ⟨fun a b => @LE.le (List String) List.instLE a.list b.list⟩

instance : DecidableLT Texts := fun a b => List.decidableLT a.list b.list

instance : DecidableLE Texts := fun a b => List.decidableLE a.list b.list

instance : Std.LawfulOrderLT Texts where
  lt_iff a b :=
    (inferInstance : @Std.LawfulOrderLT (List String) List.instLT List.instLE).lt_iff a.list b.list

/-- The order of lists of texts, of which any two can be compared. -/
instance : Std.IsLinearOrder Texts where
  le_refl a := List.instIsLinearOrder.le_refl a.list
  le_trans a b c := List.instIsLinearOrder.le_trans a.list b.list c.list
  le_antisymm a b hab hba := by
    obtain ⟨as⟩ := a
    obtain ⟨bs⟩ := b
    exact congrArg mk (List.instIsLinearOrder.le_antisymm as bs hab hba)
  le_total a b := List.instIsLinearOrder.le_total a.list b.list

end Texts

end TypedEntities
