import TypedEntities.Json.Decode
import TypedEntities.Json.Parser

/-!
# Pages

A collection is answered in pages. A page holds some of the items and may tell how many there are in
all.
-/

namespace TypedEntities.Remote

/-- A page of a collection. -/
structure Page (α : Type) where
  /-- How many items the collection has, if the server tells. -/
  total : Option UInt64
  items : List α
deriving Inhabited

namespace Page

variable {α : Type}

/-- Whether more items follow a page that starts at an offset. A page without items is the last, and
so is one that does not tell how many there are. -/
def hasMore (p : Page α) (offset : Nat) : Bool :=
  !p.items.isEmpty && p.total.any fun total => offset + p.items.length < total.toNat

/-- More items only follow a page with items that ends below the greatest number there is. -/
theorem lt_of_hasMore {p : Page α} {offset : Nat} (h : p.hasMore offset = true) :
    offset < offset + p.items.length ∧ offset + p.items.length < 0x10000000000000000 := by
  obtain ⟨total, items⟩ := p
  cases items with
  | nil => simp [hasMore] at h
  | cons a rest =>
    cases total with
    | none => simp [hasMore] at h
    | some total =>
      have := total.toNat_lt
      simp only [hasMore, List.isEmpty_cons, Bool.not_false, Option.any_some, Bool.true_and,
        decide_eq_true_eq, List.length_cons] at h ⊢
      omega

/-- Reads a page of items. -/
def decode (item : Json.Decoder α) : Json.Decoder (Page α) := fun levels t => do
  match ← Json.Decoder.slots ["total_count", "data"] levels t with
  | [total, data] => do
    let total ← Json.Decoder.withDefault none (.nullable .natural) (levels - 1) total
    let data ← Json.Decoder.withDefault [] (.list item) (levels - 1) data
    return ⟨total.map UInt64.ofNat, data⟩
  | _ => none

/-- Reads the text of a page. -/
def parse? (item : Json.Decoder α) (text : String) : Option (Page α) :=
  (Json.Tree.parse? text).bind (decode item Json.maxLevels)

end Page

end TypedEntities.Remote
