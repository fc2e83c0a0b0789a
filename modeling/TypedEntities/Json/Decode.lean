import TypedEntities.Json.Value

/-!
# Decoding JSON trees

A decoder reads a tree as a value of a type, or refuses it. A record is read from an object, whose
unknown keys are passed over, or from an array that lists its fields in their order. A known key may
stand only once. Nothing is converted: a number is no text, and a number with a point or an exponent
is no integer.

A decoder is told how many arrays and objects may still stand inside each other at its place. What
it passes over is not bounded.
-/

namespace TypedEntities.Json

/-- Reads a tree, inside which at most the given number of levels may follow. -/
abbrev Decoder (α : Type) := Nat → Tree → Option α

namespace Decoder

variable {α : Type}

def text : Decoder String
  | _, .text s => s
  | _, _ => none

def bool : Decoder Bool
  | _, .bool b => some b
  | _, _ => none

/-- An integer of either sign that fits 64 bits, or a greater one without sign. -/
def integer : Decoder Int
  | _, .number t =>
    match t.value? with
    | some (.integer n) => some n
    | _ => none
  | _, _ => none

/-- An integer that fits 64 bits with a sign. -/
def signed : Decoder Int := fun levels t =>
  (integer levels t).filter fun n => n < 0x8000000000000000

/-- An integer that fits 64 bits without a sign. -/
def natural : Decoder Nat := fun levels t =>
  (integer levels t).bind fun n => if 0 ≤ n then some n.toNat else none

/-- Any value. -/
def value : Decoder Json := fun levels t => t.value? levels

/-- An array of values of one kind. -/
def list (item : Decoder α) : Decoder (List α)
  | levels, .array items => if levels = 0 then none else items.mapM (item (levels - 1))
  | _, _ => none

/-- A value or null. -/
def nullable (d : Decoder α) : Decoder (Option α)
  | _, .null => some none
  | levels, t => (d levels t).map some

/-! ## Records -/

/-- The tree of a key among members, if the key stands at most once. -/
def slot? (members : List (String × Tree)) (key : String) : Option (Option Tree) :=
  match members.filter fun m => m.1 = key with
  | [] => some none
  | [m] => some (some m.2)
  | _ => none

/-- The trees of the fields of a record given as members. -/
def slotsOfMembers (fields : List String) (members : List (Option String × Tree)) :
    Option (List (Option Tree)) := do
  let members ← members.mapM fun (key, t) => key.map (·, t)
  fields.mapM (slot? members)

/-- The trees of the fields of a record given as a list. -/
def slotsOfItems (fields : List String) (items : List Tree) : Option (List (Option Tree)) :=
  if fields.length < items.length then none
  else some (items.map some ++ List.replicate (fields.length - items.length) none)

/-- The trees of the fields of a record, in the order of the fields. -/
def slots (fields : List String) : Decoder (List (Option Tree))
  | 0, _ => none
  | _ + 1, .object members => slotsOfMembers fields members
  | _ + 1, .array items => slotsOfItems fields items
  | _, _ => none

/-- A field that must be there. -/
def required (d : Decoder α) (levels : Nat) : Option Tree → Option α
  | none => none
  | some t => d levels t

/-- A field that has a value when it is not there. -/
def withDefault (default : α) (d : Decoder α) (levels : Nat) : Option Tree → Option α
  | none => some default
  | some t => d levels t

end Decoder

end TypedEntities.Json
