import Mathlib
import TypedEntities.Proofs.Catalog

/-!
# Reaching the leaves

The walk below a type finds every type without subtypes that can be reached from it, and nothing else
(`Catalog.mem_leaves_iff`), even where types are below themselves. What carries the proof is the paths
that keep off the types already entered: once a type is entered, whatever is reached through it is
also reached from one of its subtypes without coming back.
-/

namespace TypedEntities.Catalog

variable {c : Catalog} {seen : List String} {name x : String}

/-! ## Paths -/

/-- One type is a direct subtype of another. -/
def IsSubtype (c : Catalog) (parent child : String) : Prop := child ∈ c.subtypes parent

/-- A type is reached from another along subtypes; every type is reached from itself. -/
def Reaches (c : Catalog) : String → String → Prop := Relation.ReflTransGen c.IsSubtype

/-- A type is reached along subtypes that were not seen. -/
inductive Avoids (c : Catalog) (seen : List String) : String → String → Prop
  | stay {x : String} (h : x ∉ seen) : Avoids c seen x x
  | descend {w w' x : String} (h : w ∉ seen) (hsub : c.IsSubtype w w')
      (hrest : Avoids c seen w' x) : Avoids c seen w x

theorem Avoids.notMem {w : String} (h : c.Avoids seen w x) : w ∉ seen := by
  cases h with
  | stay h => exact h
  | descend h => exact h

theorem Avoids.mono {w : String} (h : c.Avoids (name :: seen) w x) : c.Avoids seen w x := by
  induction h with
  | stay h => exact .stay fun hmem => h (List.mem_cons_of_mem _ hmem)
  | descend h hsub _ ih => exact .descend (fun hmem => h (List.mem_cons_of_mem _ hmem)) hsub ih

theorem avoids_nil_iff {w : String} : c.Avoids [] w x ↔ c.Reaches w x := by
  constructor
  · intro h
    induction h with
    | stay => exact .refl
    | descend _ hsub _ ih => exact .head hsub ih
  · intro h
    induction h using Relation.ReflTransGen.head_induction_on with
    | refl => exact .stay List.not_mem_nil
    | head hsub _ ih => exact .descend List.not_mem_nil hsub ih

/-- What is reached passes the type for the last time, if it does at all. -/
theorem Avoids.split {w : String} (h : c.Avoids seen w x) (hne : x ≠ name) :
    c.Avoids (name :: seen) w x
      ∨ ∃ child, c.IsSubtype name child ∧ c.Avoids (name :: seen) child x := by
  induction h with
  | stay h => exact .inl (.stay (List.not_mem_cons_of_ne_of_not_mem hne h))
  | @descend w w' x h hsub _ ih =>
    rcases ih hne with hrest | hthrough
    · by_cases hw : w = name
      · exact .inr ⟨w', hw ▸ hsub, hrest⟩
      · exact .inl (.descend (List.not_mem_cons_of_ne_of_not_mem hw h) hsub hrest)
    · exact .inr hthrough

/-- When a type is entered, its subtypes wait in its place: they lead to all else that it leads to. -/
theorem exists_avoids_iff_of_ne (hnew : name ∉ seen) (hne : x ≠ name) (waiting : List String) :
    (∃ w ∈ name :: waiting, c.Avoids seen w x)
      ↔ ∃ w ∈ c.subtypes name ++ waiting, c.Avoids (name :: seen) w x := by
  constructor
  · intro hpaths
    obtain ⟨w, hw, hpath⟩ := hpaths
    rcases hpath.split hne with hpath | ⟨child, hchild, hpath⟩
    · rcases List.mem_cons.mp hw with rfl | hw
      · exact absurd (List.mem_cons_self ..) hpath.notMem
      · exact ⟨w, List.mem_append_right _ hw, hpath⟩
    · exact ⟨child, List.mem_append_left _ hchild, hpath⟩
  · intro hpaths
    obtain ⟨w, hw, hpath⟩ := hpaths
    rcases List.mem_append.mp hw with hchild | hw
    · exact ⟨name, List.mem_cons_self .., .descend hnew hchild hpath.mono⟩
    · exact ⟨w, List.mem_cons_of_mem _ hw, hpath.mono⟩

/-! ## The length of the walk -/

/-- How many pairs of a type that was not seen and a direct subtype there are. -/
def unseenEdges (c : Catalog) (seen : List String) : Nat :=
  ((c.edges.entries.filter fun e => e.1 ∉ seen).map fun e => e.2.length).sum

theorem unseenEdges_nil (c : Catalog) : c.unseenEdges [] = c.edgeCount := by
  unfold unseenEdges edgeCount Table.values
  simp [List.length_flatten, List.map_map, Function.comp_def]

/-- Entering a type takes its subtypes off those that may still come. -/
theorem unseenEdges_cons (h : name ∉ seen) :
    c.unseenEdges (name :: seen) + (c.subtypes name).length ≤ c.unseenEdges seen := by
  unfold unseenEdges subtypes Table.get?
  induction c.edges.entries with
  | nil => simp
  | cons e entries ih =>
    by_cases hname : e.1 = name
    · -- its subtypes were counted before, and no later entry is looked at
      have hnew : e.1 ∉ seen := hname ▸ h
      rw [List.filter_cons_of_neg (by simp [hname]), List.filter_cons_of_pos (by simp [hnew]),
        List.find?_cons_of_pos (by simp [hname]), List.map_cons, List.sum_cons]
      show _ + e.2.length ≤ _
      omega
    · by_cases hseen : e.1 ∈ seen
      · rw [List.filter_cons_of_neg (by simp [hseen]), List.filter_cons_of_neg (by simp [hseen]),
          List.find?_cons_of_neg (by simp [hname])]
        exact ih
      · rw [List.filter_cons_of_pos (by simp [hname, hseen]),
          List.filter_cons_of_pos (by simp [hseen]), List.find?_cons_of_neg (by simp [hname]),
          List.map_cons, List.sum_cons, List.map_cons, List.sum_cons]
        omega

/-! ## The walk -/

/-- **The walk finds the types without subtypes that are reached** from those that wait, keeping off
those that were seen. -/
theorem mem_walk_iff {fuel : Nat} {waiting seen : List String}
    (hfuel : waiting.length + c.unseenEdges seen ≤ fuel) :
    x ∈ c.walk fuel waiting seen ↔ c.subtypes x = [] ∧ ∃ w ∈ waiting, c.Avoids seen w x := by
  -- each round takes a type that waits, or the subtypes of one that was not seen, off the fuel
  induction fuel generalizing waiting seen with
  | zero =>
    have hnil : waiting = [] := List.length_eq_zero_iff.mp (by omega)
    simp [walk, hnil]
  | succ fuel ih =>
    cases waiting with
    | nil => simp [walk]
    | cons name waiting =>
      rw [List.length_cons] at hfuel
      unfold walk
      split
      next hseen =>
        -- no path that keeps off what was seen begins here
        have hnone : ¬c.Avoids seen name x := fun h => h.notMem hseen
        rw [ih (by omega), List.exists_mem_cons_iff, or_iff_right hnone]
      next hnew =>
        have hlength := unseenEdges_cons (c := c) hnew
        split
        next hleaf =>
          rw [List.mem_cons, ih (by omega)]
          -- the type itself is found; nothing else is reached through it
          rcases eq_or_ne x name with rfl | hname
          · exact iff_of_true (.inl rfl) ⟨hleaf, x, List.mem_cons_self .., .stay hnew⟩
          · rw [or_iff_right hname, exists_avoids_iff_of_ne hnew hname, hleaf, List.nil_append]
        next hchildren =>
          rw [ih (by rw [List.length_append]; omega)]
          refine and_congr_right fun hx => (exists_avoids_iff_of_ne hnew ?_ waiting).symm
          exact fun hname => hchildren (hname ▸ hx)

/-- **The leaves below a type** are the types without subtypes that are reached from it. -/
theorem mem_leaves_iff : x ∈ c.leaves name ↔ c.subtypes x = [] ∧ c.Reaches name x := by
  unfold leaves
  rw [mem_walk_iff (by rw [unseenEdges_nil]; simp; omega)]
  simp [avoids_nil_iff]

end TypedEntities.Catalog
