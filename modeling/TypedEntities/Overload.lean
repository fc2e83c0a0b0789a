import TypedEntities.Combination
import TypedEntities.Failure
import TypedEntities.Table

/-!
# Constructor overloads

A constructor sets every required field, and a field may accept several types. There is one
constructor for each way to choose a type for every field, in the order in which the choice for the
last field changes fastest.
-/

namespace TypedEntities

open TypedEntities.Java (TypeExpr)

/-- The most overloads that a model may have. -/
def maxOverloads : Nat := 4096

/-- The required fields in the order of their names, each with the types it accepts. -/
structure RequiredFields where
  fields : Table String (List TypeExpr)
deriving Inhabited

/-- The first field at which the product of the numbers of types, counted from `total` on, is more
than the limit. So is any product that a word does not hold. -/
def tooMany? (total : Nat) : List (String × List TypeExpr) → Option String
  | [] => none
  | (field, types) :: rest =>
    if maxOverloads < total * types.length then some field
    else tooMany? (total * types.length) rest

theorem length_choices_cons (name : String) (types : List TypeExpr)
    (fields : List (String × List TypeExpr)) :
    (choices ((name, types) :: fields)).length = types.length * (choices fields).length := by
  induction types with
  | nil => simp [choices]
  | cons t types ih =>
    simp only [choices, List.flatMap_cons, List.length_append, List.length_map,
      List.length_cons] at ih ⊢
    rw [ih, Nat.add_one_mul, Nat.add_comm]

/-- Where there are not too many ways to choose, all of them can be counted. -/
theorem counts_of_tooMany? {total : Nat} {fields : List (String × List TypeExpr)}
    (h : tooMany? total fields = none) (hnonempty : ∀ field ∈ fields, field.2 ≠ [])
    (hpos : 0 < total) (hle : total ≤ maxOverloads) :
    total * (choices fields).length ≤ maxOverloads ∧ Odometer.Counts fields := by
  induction fields generalizing total with
  | nil => exact ⟨by simpa [choices] using hle, nofun⟩
  | cons field fields ih =>
    obtain ⟨name, types⟩ := field
    have htypes : 0 < types.length :=
      List.length_pos_iff.mpr (hnonempty _ (List.mem_cons_self ..))
    simp only [tooMany?] at h
    split at h
    next => cases h
    next hfew =>
      obtain ⟨hproduct, hcounts⟩ := ih h (fun f hf => hnonempty f (List.mem_cons_of_mem _ hf))
        (Nat.mul_pos hpos htypes) (Nat.le_of_not_lt hfew)
      refine ⟨?_, fun f hf => ?_⟩
      · rwa [length_choices_cons, ← Nat.mul_assoc]
      · rcases List.mem_cons.mp hf with rfl | hf
        · -- the total before is not zero, so no field has more types than there may be ways
          have : types.length ≤ maxOverloads :=
            Nat.le_trans (Nat.le_mul_of_pos_left _ hpos) (Nat.le_of_not_lt hfew)
          exact Nat.lt_of_le_of_lt this (by decide)
        · exact hcounts f hf

/-- Where each field accepts some type and there are not too many ways to choose, counting comes to
all of them. -/
theorem rows?_of_tooMany? {fields : List (String × List TypeExpr)}
    (hnonempty : (fields.find? fun f => f.2.isEmpty) = none) (h : tooMany? 1 fields = none) :
    Odometer.rows? fields maxOverloads = some (choices fields) := by
  have hne : ∀ field ∈ fields, field.2 ≠ [] := by
    intro field hfield hnil
    have := List.find?_eq_none.mp hnonempty field hfield
    rw [hnil] at this
    exact this rfl
  obtain ⟨hproduct, hcounts⟩ := counts_of_tooMany? h hne Nat.one_pos (by decide)
  rw [Nat.one_mul] at hproduct
  exact Odometer.rows?_eq hne hcounts hproduct

/-- The combinations of fields that can be combined, as they are counted. -/
def counted (fields : List (String × List TypeExpr))
    (hnonempty : (fields.find? fun f => f.2.isEmpty) = none) (hfew : tooMany? 1 fields = none) :
    List Combination :=
  (Odometer.rows? fields maxOverloads).get
    (Option.isSome_iff_exists.mpr ⟨_, rows?_of_tooMany? hnonempty hfew⟩)

theorem counted_eq {fields : List (String × List TypeExpr)}
    (hnonempty : (fields.find? fun f => f.2.isEmpty) = none) (hfew : tooMany? 1 fields = none) :
    counted fields hnonempty hfew = choices fields := by
  simp only [counted, rows?_of_tooMany? hnonempty hfew, Option.get_some]

namespace RequiredFields

def empty : RequiredFields := ⟨Table.empty⟩

/-- Sets the types that a field accepts, each once. -/
def insert (r : RequiredFields) (field : String) (types : List TypeExpr) : RequiredFields :=
  ⟨r.fields.insert field types.eraseDups⟩

def size (r : RequiredFields) : Nat := r.fields.size

/-- All ways to choose a type for every field; none if there are no fields. -/
def combinations (r : RequiredFields) (entity : String) : Except Failure (List Combination) :=
  let fields := r.fields.entries
  match hnonempty : fields.find? fun f => f.2.isEmpty with
  | some f => .error (.metadata entity f.1 "required field has no candidate types")
  | none =>
    if fields.isEmpty then .ok []
    else match hfew : tooMany? 1 fields with
    | some field => .error (.metadata entity field "too many constructor overloads")
    | none => .ok (counted fields hnonempty hfew)

/-- The combinations that are counted are all choices. -/
theorem combinations_eq (r : RequiredFields) (entity : String) :
    r.combinations entity
      = match r.fields.entries.find? fun f => f.2.isEmpty with
        | some f => .error (.metadata entity f.1 "required field has no candidate types")
        | none =>
          if r.fields.entries.isEmpty then .ok []
          else match tooMany? 1 r.fields.entries with
          | some field => .error (.metadata entity field "too many constructor overloads")
          | none => .ok (choices r.fields.entries) := by
  simp only [combinations, counted_eq]
  split
  next f hempty => simp only [hempty]
  next hnonempty =>
    simp only [hnonempty]
    split
    next => rfl
    next =>
      split
      next field hmany => simp only [hmany]
      next hfew => simp only [hfew]

end RequiredFields

end TypedEntities
