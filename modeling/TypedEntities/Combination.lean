import TypedEntities.Java.TypeExpr

/-!
# Combinations

A combination chooses for every field one of the types that it accepts. `choices` says which
combinations there are and in which order: the choice for the last field changes fastest.

They are made by counting. Each field has a counter that shows the position of a type, and the
counters move on like those of an odometer: the last one first, and one that has shown every position
starts again and takes the one before it along. When all have started again, everything was shown. A
counter could show a position that its field does not have or go past the greatest number of a word,
and the counting could go on for ever; `Odometer.rows?_eq` says that none of it happens and that the
counting comes to `choices`.
-/

namespace TypedEntities

open TypedEntities.Java (TypeExpr)

/-- A type chosen for each field. -/
abbrev Combination := List (String × TypeExpr)

/-- The type chosen for a field. -/
def Combination.typeOf? (c : Combination) (field : String) : Option TypeExpr :=
  (c.find? fun choice => choice.1 = field).map Prod.snd

/-- All ways to choose a type for every field. -/
def choices : List (String × List TypeExpr) → List Combination
  | [] => [[]]
  | (field, types) :: rest =>
    let tails := choices rest
    types.flatMap fun t => tails.map fun tail => (field, t) :: tail

namespace Odometer

/-! ## Counting

A step that cannot be made has no result. -/

/-- One more than a number, if a word can hold it. -/
def succ? (n : Nat) : Option Nat := if n + 1 < 0x10000000000000000 then some (n + 1) else none

/-- The combination that counters show. -/
def row? (fields : List (String × List TypeExpr)) (counters : List Nat) : Option Combination :=
  (fields.zip counters).mapM fun (field, counter) => do
    let type ← field.2[counter]?
    return (field.1, type)

/-- Moves on the counters before a position, the last of them first. If all of them start again there
is nothing to move on to. -/
def advance? (fields : List (String × List TypeExpr)) (counters : List Nat) :
    (position : Nat) → Option (Option (List Nat))
  | 0 => some none
  | position + 1 => do
    let field ← fields[position]?
    let next ← succ? (← counters[position]?)
    if next < field.2.length then some (some (counters.set position next))
    else advance? fields (counters.set position 0) position

/-- The combinations from the one on that counters show, if they come to an end in so many rounds. -/
def rounds? (fields : List (String × List TypeExpr)) :
    (most : Nat) → (counters : List Nat) → Option (List Combination)
  | 0, _ => none
  | most + 1, counters => do
    let row ← row? fields counters
    match ← advance? fields counters fields.length with
    | none => some [row]
    | some counters => (rounds? fields most counters).map (row :: ·)

/-- Counters that show the first position everywhere. -/
def zeros (fields : List (String × List TypeExpr)) : List Nat := fields.map fun _ => 0

/-- All combinations, if they come to an end in so many rounds. -/
def rows? (fields : List (String × List TypeExpr)) (most : Nat) : Option (List Combination) :=
  rounds? fields most (zeros fields)

/-! ## What is counted -/

variable {fields fields' : List (String × List TypeExpr)} {counters counters' : List Nat}

/-- Every counter shows a position of its field. -/
def Fits : List (String × List TypeExpr) → List Nat → Prop
  | [], [] => True
  | field :: fields, counter :: counters => counter < field.2.length ∧ Fits fields counters
  | _, _ => False

/-- The numbers that counters can come to are numbers of a word. -/
def Counts (fields : List (String × List TypeExpr)) : Prop :=
  ∀ field ∈ fields, field.2.length < 0x10000000000000000

/-- The combinations from the one on that counters show: first those with the same choice for the
first field. -/
def remaining : List (String × List TypeExpr) → List Nat → List Combination
  | (name, types) :: fields, counter :: counters =>
    match types.drop counter with
    | [] => []
    | t :: later =>
      (remaining fields counters).map ((name, t) :: ·) ++ choices ((name, later) :: fields)
  | _, _ => [[]]

/-- The counters after others, seen from the first field: it waits for the fields behind it. -/
def next? : List (String × List TypeExpr) → List Nat → Option (List Nat)
  | field :: fields, counter :: counters =>
    match next? fields counters with
    | some counters => some (counter :: counters)
    | none => if counter + 1 < field.2.length then some ((counter + 1) :: zeros fields) else none
  | _, _ => none

theorem Fits.length_eq (h : Fits fields counters) : counters.length = fields.length := by
  induction fields generalizing counters with
  | nil =>
    cases counters with
    | nil => rfl
    | cons => exact h.elim
  | cons field fields ih =>
    cases counters with
    | nil => exact h.elim
    | cons counter counters => simp only [List.length_cons, ih h.2]

theorem fits_zeros (h : ∀ field ∈ fields, field.2 ≠ []) : Fits fields (zeros fields) := by
  induction fields with
  | nil => trivial
  | cons field fields ih =>
    exact ⟨List.length_pos_iff.mpr (h field (List.mem_cons_self ..)),
      ih fun f hf => h f (List.mem_cons_of_mem _ hf)⟩

theorem Fits.zeros (h : Fits fields counters) : Fits fields (zeros fields) := by
  induction fields generalizing counters with
  | nil => trivial
  | cons field fields ih =>
    cases counters with
    | nil => exact h.elim
    | cons counter counters => exact ⟨Nat.zero_lt_of_lt h.1, ih h.2⟩

theorem remaining_zeros (fields : List (String × List TypeExpr)) :
    remaining fields (zeros fields) = choices fields := by
  induction fields with
  | nil => rfl
  | cons field fields ih =>
    obtain ⟨name, types⟩ := field
    cases types with
    | nil => rfl
    | cons t later =>
      show (remaining fields (zeros fields)).map ((name, t) :: ·) ++ choices ((name, later) :: fields)
        = _
      rw [ih]
      rfl

/-- The position that a fitting counter shows is there. -/
theorem exists_drop {types : List TypeExpr} {counter : Nat} (h : counter < types.length) :
    ∃ t later, types.drop counter = t :: later ∧ types[counter]? = some t
      ∧ types.drop (counter + 1) = later :=
  ⟨types[counter], types.drop (counter + 1), List.drop_eq_getElem_cons h,
    List.getElem?_eq_getElem h, rfl⟩

/-! ## One round -/

theorem row?_cons {name : String} {types : List TypeExpr} {counter : Nat} {t : TypeExpr}
    {row : Combination} (ht : types[counter]? = some t) (hrow : row? fields counters = some row) :
    row? ((name, types) :: fields) (counter :: counters) = some ((name, t) :: row) := by
  unfold row? at hrow ⊢
  rw [List.zip_cons_cons, List.mapM_cons, hrow]
  simp only [ht]
  rfl

/-- One round shows the first of the remaining combinations and leaves the others. -/
theorem exists_row? (h : Fits fields counters) :
    ∃ row, row? fields counters = some row
      ∧ match next? fields counters with
        | none => remaining fields counters = [row]
        | some counters' => Fits fields counters'
          ∧ remaining fields counters = row :: remaining fields counters' := by
  induction fields generalizing counters with
  | nil =>
    cases counters with
    | nil => exact ⟨[], rfl, rfl⟩
    | cons => exact h.elim
  | cons field fields ih =>
    obtain ⟨name, types⟩ := field
    cases counters with
    | nil => exact h.elim
    | cons counter counters =>
      obtain ⟨hcounter, hrest⟩ := h
      obtain ⟨t, later, hdrop, ht, hlater⟩ := exists_drop hcounter
      obtain ⟨row, hrow, hnext⟩ := ih hrest
      refine ⟨(name, t) :: row, row?_cons ht hrow, ?_⟩
      simp only [next?, remaining, hdrop]
      cases hcounters : next? fields counters with
      | some counters' =>
        rw [hcounters] at hnext
        obtain ⟨hfits, hremaining⟩ := hnext
        refine ⟨⟨hcounter, hfits⟩, ?_⟩
        simp only [remaining, hdrop, hremaining, List.map_cons, List.cons_append]
      | none =>
        rw [hcounters] at hnext
        -- the fields behind are done with, so the first field is to move on
        simp only [hnext, List.map_cons, List.map_nil, List.cons_append, List.nil_append]
        by_cases hmore : counter + 1 < types.length
        · rw [if_pos hmore]
          obtain ⟨t', later', hdrop', -, -⟩ := exists_drop hmore
          refine ⟨⟨hmore, hrest.zeros⟩, ?_⟩
          simp only [remaining, hdrop', remaining_zeros]
          rw [← hlater, hdrop']
          rfl
        · rw [if_neg hmore, ← hlater, List.drop_eq_nil_of_le (Nat.le_of_not_lt hmore)]
          rfl

theorem remaining_ne_nil (h : Fits fields counters) : remaining fields counters ≠ [] := by
  obtain ⟨row, -, hnext⟩ := exists_row? h
  cases hcounters : next? fields counters with
  | none =>
    rw [hcounters] at hnext
    rw [show remaining fields counters = [row] from hnext]
    exact List.cons_ne_nil _ _
  | some counters' =>
    rw [hcounters] at hnext
    rw [hnext.2]
    exact List.cons_ne_nil _ _

/-- A counter behind others moves on, or starts again and leaves it to them. -/
theorem advance?_append {field : String × List TypeExpr} {shown : List Nat} {counter : Nat}
    (hlength : shown.length = fields'.length) (hcounter : counter < field.2.length)
    (hword : field.2.length < 0x10000000000000000) :
    advance? (fields' ++ field :: fields) (shown ++ counter :: counters) (shown.length + 1)
      = if counter + 1 < field.2.length then some (some (shown ++ (counter + 1) :: counters))
        else advance? (fields' ++ field :: fields) (shown ++ 0 :: counters) shown.length := by
  have hfield : (fields' ++ field :: fields)[shown.length]? = some field := by
    simp [hlength]
  have hshown : (shown ++ counter :: counters)[shown.length]? = some counter := by simp
  have hsucc : succ? counter = some (counter + 1) := if_pos (by omega)
  have hset : ∀ n, (shown ++ counter :: counters).set shown.length n = shown ++ n :: counters := by
    intro n
    simp
  simp only [advance?, hfield, hshown, hsucc, hset, Option.bind_eq_bind, Option.bind_some]

/-- The counters of the last fields move on as they would alone. When they all start again, those
before them move on. -/
theorem advance?_eq {shown : List Nat} (hlength : shown.length = fields'.length)
    (hfits : Fits fields counters) (hcounts : Counts fields) :
    advance? (fields' ++ fields) (shown ++ counters) (shown.length + counters.length)
      = match next? fields counters with
        | some counters' => some (some (shown ++ counters'))
        | none => advance? (fields' ++ fields) (shown ++ zeros fields) shown.length := by
  induction fields generalizing fields' shown counters with
  | nil =>
    cases counters with
    | nil => rfl
    | cons => exact hfits.elim
  | cons field fields ih =>
    cases counters with
    | nil => exact hfits.elim
    | cons counter counters =>
      obtain ⟨hcounter, hrest⟩ := hfits
      have hword := hcounts field (List.mem_cons_self ..)
      have hlater : advance? ((fields' ++ [field]) ++ fields) ((shown ++ [counter]) ++ counters) _
          = _ :=
        ih (by simp [hlength]) hrest fun f hf => hcounts f (List.mem_cons_of_mem _ hf)
      -- the counter is counted as shown now, so the position is the same
      have hend : shown.length + (counter :: counters).length
          = (shown ++ [counter]).length + counters.length := by
        simp only [List.length_cons, List.length_append, List.length_nil]
        omega
      simp only [List.append_assoc, List.singleton_append] at hlater
      rw [hend, hlater]
      simp only [next?]
      cases next? fields counters with
      | some counters' => rfl
      | none =>
        -- all later counters stand at their ends, so this one moves on and they start again
        simp only [List.length_append, List.length_cons, List.length_nil]
        rw [advance?_append hlength hcounter hword]
        split <;> rfl

theorem advance?_all (hfits : Fits fields counters) (hcounts : Counts fields) :
    advance? fields counters fields.length = some (next? fields counters) := by
  have h : advance? ([] ++ fields) ([] ++ counters) _ = _ := advance?_eq rfl hfits hcounts
  simp only [List.nil_append, List.length_nil, Nat.zero_add, hfits.length_eq] at h
  rw [h]
  cases next? fields counters <;> rfl

/-! ## All rounds -/

/-- Counting goes on to the last combination, if there are enough rounds for those that remain. -/
theorem rounds?_eq (hcounts : Counts fields) {most : Nat} (hfits : Fits fields counters)
    (hmost : (remaining fields counters).length ≤ most) :
    rounds? fields most counters = some (remaining fields counters) := by
  induction most generalizing counters with
  | zero =>
    exact absurd (List.eq_nil_of_length_eq_zero (Nat.le_zero.mp hmost)) (remaining_ne_nil hfits)
  | succ most ih =>
    obtain ⟨row, hrow, hnext⟩ := exists_row? hfits
    simp only [rounds?, hrow, advance?_all hfits hcounts, Option.bind_eq_bind, Option.bind_some]
    cases hcounters : next? fields counters with
    | none =>
      rw [hcounters] at hnext
      rw [hnext]
    | some counters' =>
      rw [hcounters] at hnext
      obtain ⟨hfits', hremaining⟩ := hnext
      -- the row that is given takes one off the number that is left
      rw [hremaining, List.length_cons] at hmost
      simp only [ih hfits' (Nat.le_of_succ_le_succ hmost), hremaining, Option.map_some]

/-- **Counting comes to all combinations**, in as many rounds as there are. No step on the way is one
that cannot be made. -/
theorem rows?_eq {most : Nat} (hnonempty : ∀ field ∈ fields, field.2 ≠ []) (hcounts : Counts fields)
    (hmost : (choices fields).length ≤ most) : rows? fields most = some (choices fields) := by
  rw [← remaining_zeros] at hmost ⊢
  exact rounds?_eq hcounts (fits_zeros hnonempty) hmost

end Odometer

end TypedEntities
