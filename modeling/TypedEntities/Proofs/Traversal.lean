import Mathlib
import TypedEntities.Proofs.Leaves

/-!
# The walk and the traversal

The walk below a type keeps a list of types that wait. A type may wait there several times, and it
counts as seen only when its turn comes. `Catalog.traverse` needs no such list: it goes down into
each subtype in turn and passes over the types that it has entered. `Catalog.leaves_traversal` says
that the walk comes to an end and finds what the traversal finds, in the same order. What carries
the proof is that entering a type and putting its subtypes before those that wait is the same as
going down into it first (`Catalog.found_visitAll_of_subtypes`).
-/

namespace TypedEntities.Catalog

variable {c : Catalog} {seen : List String} {name : String}

/-! ## Going down -/

/-- What a part of the traversal comes to: the types without subtypes that it finds, in the order in
which it finds them, and all types that were entered by then. -/
structure Visit (seen : List String) where
  found : List String
  entered : List String
  grown : seen ⊆ entered

/-- Entering a type only adds to the types that were entered. -/
def Visit.ofEntered (v : Visit (name :: seen)) : Visit seen :=
  ⟨v.found, v.entered, List.subset_of_cons_subset v.grown⟩

/-- The more types were seen, the fewer subtypes may still come. -/
theorem unseenEdges_le {entered : List String} (h : seen ⊆ entered) :
    c.unseenEdges entered ≤ c.unseenEdges seen := by
  have hentries : (c.edges.entries.filter fun e => e.1 ∉ entered).Sublist
      (c.edges.entries.filter fun e => e.1 ∉ seen) :=
    List.monotone_filter_right _ fun e he =>
      decide_eq_true fun hmem => of_decide_eq_true he (h hmem)
  exact (hentries.map fun e => e.2.length).sum_le_sum fun _ _ => Nat.zero_le _

mutual

/-- Goes down into a type, unless it was entered before: a type without subtypes is found, and of
any other its subtypes are visited in their order. -/
def visit (c : Catalog) (name : String) (seen : List String) : Visit seen :=
  if _hseen : name ∈ seen then ⟨[], seen, List.Subset.refl seen⟩
  else if c.subtypes name = [] then ⟨[name], name :: seen, List.subset_cons_self name seen⟩
  else (visitAll c (c.subtypes name) (name :: seen)).ofEntered
termination_by 2 * c.unseenEdges seen + 1
decreasing_by
  have := unseenEdges_cons (c := c) _hseen
  omega

/-- Goes down into one type after the other. -/
def visitAll (c : Catalog) (names : List String) (seen : List String) : Visit seen :=
  match names with
  | [] => ⟨[], seen, List.Subset.refl seen⟩
  | name :: names =>
    let first := visit c name seen
    let rest := visitAll c names first.entered
    ⟨first.found ++ rest.found, rest.entered, fun _ h => rest.grown (first.grown h)⟩
termination_by 2 * (c.unseenEdges seen + names.length)
decreasing_by
  · simp only [List.length_cons]
    omega
  · refine Nat.mul_lt_mul_of_pos_left ?_ Nat.two_pos
    exact Nat.add_lt_add_of_le_of_lt (unseenEdges_le (Visit.grown _)) (Nat.lt_succ_self _)

end

/-- The types without subtypes below a type, by going down into its subtypes in their order and into
no type twice. -/
def traverse (c : Catalog) (name : String) : List String := (c.visit name []).found

/-- A type that was entered before adds nothing. -/
theorem visit_of_mem (h : name ∈ seen) : c.visit name seen = ⟨[], seen, List.Subset.refl seen⟩ := by
  rw [visit, dif_pos h]

/-- A type without subtypes is found. -/
theorem visit_leaf (h : name ∉ seen) (hleaf : c.subtypes name = []) :
    c.visit name seen = ⟨[name], name :: seen, List.subset_cons_self name seen⟩ := by
  rw [visit, dif_neg h, if_pos hleaf]

/-- A type with subtypes is found by what is below it. -/
theorem visit_of_subtypes (h : name ∉ seen) (hsubtypes : c.subtypes name ≠ []) :
    c.visit name seen = (c.visitAll (c.subtypes name) (name :: seen)).ofEntered := by
  rw [visit, dif_neg h, if_neg hsubtypes]

theorem found_visitAll_nil : (c.visitAll [] seen).found = [] := by rw [visitAll]

theorem found_visitAll_cons (names : List String) :
    (c.visitAll (name :: names) seen).found
      = (c.visit name seen).found ++ (c.visitAll names (c.visit name seen).entered).found := by
  rw [visitAll]

/-- Visiting some types and then others is visiting all of them. -/
theorem found_visitAll_append (names later : List String) :
    (c.visitAll (names ++ later) seen).found
      = (c.visitAll names seen).found
        ++ (c.visitAll later (c.visitAll names seen).entered).found := by
  induction names generalizing seen with
  | nil =>
    rw [List.nil_append, visitAll.eq_def c []]
    rfl
  | cons name names ih =>
    rw [List.cons_append, found_visitAll_cons, ih, visitAll.eq_def c (name :: names)]
    exact (List.append_assoc ..).symm

theorem found_visitAll_singleton : (c.visitAll [name] seen).found = (c.visit name seen).found := by
  rw [found_visitAll_cons, found_visitAll_nil, List.append_nil]

theorem found_visitAll_of_mem (h : name ∈ seen) (waiting : List String) :
    (c.visitAll (name :: waiting) seen).found = (c.visitAll waiting seen).found := by
  rw [found_visitAll_cons, visit_of_mem h, List.nil_append]

theorem found_visitAll_leaf (h : name ∉ seen) (hleaf : c.subtypes name = [])
    (waiting : List String) :
    (c.visitAll (name :: waiting) seen).found
      = name :: (c.visitAll waiting (name :: seen)).found := by
  rw [found_visitAll_cons, visit_leaf h hleaf, List.singleton_append]

/-- Going down into a type first is visiting its subtypes before the types that wait. -/
theorem found_visitAll_of_subtypes (h : name ∉ seen) (hsubtypes : c.subtypes name ≠ [])
    (waiting : List String) :
    (c.visitAll (name :: waiting) seen).found
      = (c.visitAll (c.subtypes name ++ waiting) (name :: seen)).found := by
  rw [found_visitAll_cons, visit_of_subtypes h hsubtypes, found_visitAll_append]
  rfl

/-! ## The stages of the walk -/

/-- A stage of the walk: the types that wait, the next one first, those entered, and the types
without subtypes that were found. -/
structure Stage where
  waiting : List String
  seen : List String
  found : List String

/-- The stage at which only the given type waits. -/
def Stage.start (name : String) : Stage := ⟨[name], [], []⟩

/-- Takes the next type that waits. When none waits the walk is at its end. -/
def step? (c : Catalog) : Stage → Option Stage
  | ⟨[], _, _⟩ => none
  | ⟨name :: waiting, seen, found⟩ =>
    if name ∈ seen then some ⟨waiting, seen, found⟩
    else if c.subtypes name = [] then some ⟨waiting, name :: seen, found ++ [name]⟩
    else some ⟨c.subtypes name ++ waiting, name :: seen, found⟩

/-- So many steps lead from one stage to another. -/
inductive Steps (c : Catalog) : Nat → Stage → Stage → Prop
  | refl {s : Stage} : Steps c 0 s s
  | head {n : Nat} {s s' t : Stage} (h : c.step? s = some s') (hrest : Steps c n s' t) :
      Steps c (n + 1) s t

variable {s s' t : Stage}

/-- What a step can be. -/
inductive Stepped (c : Catalog) : Stage → Stage → Prop
  | skip {name : String} {waiting seen found : List String} (hseen : name ∈ seen) :
      Stepped c ⟨name :: waiting, seen, found⟩ ⟨waiting, seen, found⟩
  | leaf {name : String} {waiting seen found : List String} (hnew : name ∉ seen)
      (hleaf : c.subtypes name = []) :
      Stepped c ⟨name :: waiting, seen, found⟩ ⟨waiting, name :: seen, found ++ [name]⟩
  | enter {name : String} {waiting seen found : List String} (hnew : name ∉ seen)
      (hsubtypes : c.subtypes name ≠ []) :
      Stepped c ⟨name :: waiting, seen, found⟩ ⟨c.subtypes name ++ waiting, name :: seen, found⟩

/-- A step of the loop takes one type off those that wait: it was seen, or is found, or has its
subtypes wait in its place. -/
theorem stepped_of_step? (h : c.step? s = some s') : c.Stepped s s' := by
  obtain ⟨_ | ⟨name, waiting⟩, seen, found⟩ := s
  · cases h
  · -- what waits was seen, or it is a leaf, or its subtypes wait before the rest
    simp only [step?] at h
    split at h
    next hseen =>
      cases h
      exact .skip hseen
    next hnew =>
      split at h
      next hleaf =>
        cases h
        exact .leaf hnew hleaf
      next hsubtypes =>
        cases h
        exact .enter hnew hsubtypes

/-- Only a stage at which no type waits has no next one. -/
theorem exists_step? (h : s.waiting ≠ []) : ∃ s', c.step? s = some s' := by
  obtain ⟨_ | ⟨name, waiting⟩, seen, found⟩ := s
  · exact absurd rfl h
  · simp only [step?]
    split
    · exact ⟨_, rfl⟩
    · split <;> exact ⟨_, rfl⟩

/-! ## The end of the walk -/

/-- How many types wait or may still come to wait. -/
def load (c : Catalog) (s : Stage) : Nat := s.waiting.length + c.unseenEdges s.seen

/-- Each step leaves less to do. -/
theorem load_lt_of_step? (h : c.step? s = some s') : c.load s' < c.load s := by
  unfold load
  cases stepped_of_step? h with
  | skip =>
    simp only [List.length_cons]
    omega
  | leaf hnew =>
    have := unseenEdges_cons (c := c) hnew
    simp only [List.length_cons]
    omega
  | enter hnew =>
    have := unseenEdges_cons (c := c) hnew
    simp only [List.length_cons, List.length_append]
    omega

/-- From every stage the walk comes to its end. -/
theorem exists_steps (c : Catalog) (s : Stage) :
    ∃ n ≤ c.load s, ∃ seen found, c.Steps n s ⟨[], seen, found⟩ := by
  induction hload : c.load s using Nat.strong_induction_on generalizing s with
  | _ load ih =>
    by_cases hend : s.waiting = []
    · obtain ⟨waiting, seen, found⟩ := s
      obtain rfl : waiting = [] := hend
      exact ⟨0, Nat.zero_le _, seen, found, .refl⟩
    · obtain ⟨s', hstep⟩ := exists_step? (c := c) hend
      have hlt : c.load s' < load := hload ▸ load_lt_of_step? hstep
      obtain ⟨n, hn, seen, found, hsteps⟩ := ih _ hlt s' rfl
      exact ⟨n + 1, by omega, seen, found, .head hstep hsteps⟩

/-! ## What a stage comes to -/

/-- What has been found and what the traversal of the types that wait would find. -/
def outcome (c : Catalog) (s : Stage) : List String :=
  s.found ++ (c.visitAll s.waiting s.seen).found

/-- A step does not change what will have been found in the end. -/
theorem outcome_eq_of_step? (h : c.step? s = some s') : c.outcome s' = c.outcome s := by
  unfold outcome
  cases stepped_of_step? h with
  | skip hseen => rw [found_visitAll_of_mem hseen]
  | leaf hnew hleaf =>
    rw [found_visitAll_leaf hnew hleaf, List.append_assoc]
    rfl
  | enter hnew hsubtypes => rw [found_visitAll_of_subtypes hnew hsubtypes]

theorem Steps.outcome_eq {n : Nat} (h : c.Steps n s t) : c.outcome t = c.outcome s := by
  induction h with
  | refl => rfl
  | head hstep _ ih => rw [ih, outcome_eq_of_step? hstep]

/-- What was found was entered, and nothing was found twice. -/
structure Stage.Sound (s : Stage) : Prop where
  nodup : s.found.Nodup
  seen : s.found ⊆ s.seen

theorem Stage.Sound.step (hs : s.Sound) (h : c.step? s = some s') : s'.Sound := by
  obtain ⟨hnodup, hfound⟩ := hs
  cases stepped_of_step? h with
  | skip => exact ⟨hnodup, hfound⟩
  | leaf hnew =>
    constructor
    · rw [← List.concat_eq_append]
      exact hnodup.concat fun hmem => hnew (hfound hmem)
    · intro x hx
      rcases List.mem_append.mp hx with hx | hx
      · exact List.mem_cons_of_mem _ (hfound hx)
      · rw [List.mem_singleton.mp hx]
        exact List.mem_cons_self ..
  | enter => exact ⟨hnodup, fun x hx => List.mem_cons_of_mem _ (hfound hx)⟩

/-- What is sound at the start is sound after any number of steps. -/
theorem Steps.sound {n : Nat} (h : c.Steps n s t) (hs : s.Sound) : t.Sound := by
  induction h with
  | refl => exact hs
  | head hstep _ ih => exact ih (hs.step hstep)

theorem Stage.sound_start (name : String) : (start name).Sound :=
  ⟨.nil, List.nil_subset _⟩

/-! ## The steps of the walk -/

/-- The walk takes one step and goes on. -/
theorem walk_of_step? (h : c.step? s = some s') (fuel : Nat) :
    s.found ++ c.walk (fuel + 1) s.waiting s.seen = s'.found ++ c.walk fuel s'.waiting s'.seen := by
  cases stepped_of_step? h with
  | skip hseen => simp only [walk, if_pos hseen]
  | leaf hnew hleaf =>
    simp only [walk, if_neg hnew, hleaf, List.append_assoc]
    rfl
  | enter hnew hsubtypes =>
    rw [walk, if_neg hnew]
    split
    next hleaf => exact absurd hleaf hsubtypes
    next => rfl

/-- The loop finds after some steps what it has yet to find. -/
theorem Steps.walk_eq {n : Nat} (h : c.Steps n s t) (fuel : Nat) :
    s.found ++ c.walk (fuel + n) s.waiting s.seen = t.found ++ c.walk fuel t.waiting t.seen := by
  induction h with
  | refl => rfl
  | head hstep _ ih => rw [← Nat.add_assoc, walk_of_step? hstep, ih]

theorem walk_nil (fuel : Nat) : c.walk fuel [] seen = [] := by
  cases fuel <;> rfl

/-- The steps of the walk lead to the leaves. -/
theorem leaves_eq_of_steps {n : Nat} {found : List String}
    (h : c.Steps n (.start name) ⟨[], seen, found⟩) (hn : n ≤ c.edgeCount + 1) :
    c.leaves name = found := by
  have hwalk := h.walk_eq (c.edgeCount + 1 - n)
  rw [Nat.sub_add_cancel hn, walk_nil, List.append_nil] at hwalk
  exact hwalk

theorem load_start (c : Catalog) (name : String) : c.load (.start name) = c.edgeCount + 1 := by
  show 1 + c.unseenEdges [] = _
  rw [unseenEdges_nil, Nat.add_comm]

/-- The walk finds what the traversal finds. -/
theorem leaves_eq_traverse (c : Catalog) (name : String) : c.leaves name = c.traverse name := by
  obtain ⟨n, hn, seen, found, hsteps⟩ := exists_steps c (.start name)
  rw [leaves_eq_of_steps hsteps (by rwa [load_start] at hn)]
  have houtcome := hsteps.outcome_eq
  simp only [outcome, Stage.start, found_visitAll_nil, List.append_nil, List.nil_append,
    found_visitAll_singleton] at houtcome
  exact houtcome

/-- **The walk below a type** comes to its end, however the types are below each other: no type
waits any more after as many steps as there are pairs of a type and a subtype, and one. What it has
found by then is what the traversal finds, in the same order: all types without subtypes that are
reached, each once. -/
theorem leaves_traversal (c : Catalog) (name : String) :
    (∃ n ≤ c.edgeCount + 1, ∃ seen, c.Steps n (.start name) ⟨[], seen, c.leaves name⟩)
      ∧ c.leaves name = c.traverse name
      ∧ (c.leaves name).Nodup
      ∧ ∀ x, x ∈ c.leaves name ↔ c.subtypes x = [] ∧ c.Reaches name x := by
  obtain ⟨n, hn, seen, found, hsteps⟩ := exists_steps c (.start name)
  rw [load_start] at hn
  obtain rfl : c.leaves name = found := leaves_eq_of_steps hsteps hn
  exact ⟨⟨n, hn, seen, hsteps⟩, leaves_eq_traverse c name,
    (hsteps.sound (Stage.sound_start name)).nodup, fun _ => mem_leaves_iff⟩

end TypedEntities.Catalog
