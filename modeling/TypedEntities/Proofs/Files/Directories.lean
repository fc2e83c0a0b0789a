import Mathlib
import TypedEntities.Files.Tree
import TypedEntities.Proofs.Files.Sibling

/-!
# Directories that are made

Where a path leads depends on the directories of a tree alone (`walk?_congr`). Making directories adds
some and changes nothing else (`Grows`), so every way that led somewhere still leads there
(`Grows.walk?`). What `makeAlong` does is said by `MadeAlong`: it makes the directories on the way, and
where it stops the way ends for every longer path.
-/

namespace TypedEntities.FileTree

open TypedEntities.Path (Part)

variable {t t' : FileTree} {location : Location}

/-! ## Single locations -/

/-- What is put at a location is there. -/
theorem at?_put_self (h : location ≠ []) (entry : FileEntry) :
    (t.put location entry).at? location = some entry := by
  simp [at?, put, Table.insert, Table.get?_upsert_self, h]

/-- All other locations stay as they are. -/
theorem at?_put_of_ne {other : Location} (h : other ≠ location) (entry : FileEntry) :
    (t.put location entry).at? other = t.at? other := by
  have hkey : (⟨other⟩ : Texts) ≠ ⟨location⟩ := fun heq => h (Texts.mk.inj heq)
  simp [at?, put, Table.insert, Table.get?_upsert_of_ne _ _ hkey]

/-- What is taken away is gone. -/
theorem at?_erase_self (h : location ≠ []) : (t.erase location).at? location = none := by
  simp [at?, erase, Table.get?_erase_self, h]

/-- All other locations keep what they have. -/
theorem at?_erase_of_ne {other : Location} (h : other ≠ location) :
    (t.erase location).at? other = t.at? other := by
  have hkey : (⟨other⟩ : Texts) ≠ ⟨location⟩ := fun heq => h (Texts.mk.inj heq)
  simp [at?, erase, Table.get?_erase_of_ne _ hkey]

/-- What is not a directory is not at the root. -/
theorem ne_root (h : t.at? location ≠ some .directory) : location ≠ [] := by
  rintro rfl
  exact h rfl

/-! ## Trees -/

/-- Whatever is in a tree stands in a directory. -/
def IsTree (t : FileTree) : Prop :=
  ∀ location, t.at? location ≠ none → t.at? location.dropLast = some .directory

/-- The empty tree has the directory at its root and nothing else. -/
theorem isTree_empty : empty.IsTree := by
  intro l hl
  by_cases hroot : l = []
  · rw [hroot]
    rfl
  · exact absurd (if_neg hroot) hl

/-- Two trees with the same directories. -/
def SameDirectories (t t' : FileTree) : Prop :=
  ∀ location, t'.at? location = some .directory ↔ t.at? location = some .directory

/-- A tree with more directories, and nothing else that is new. -/
def Grows (t t' : FileTree) : Prop :=
  ∀ location, t'.at? location = t.at? location
    ∨ t.at? location = none ∧ t'.at? location = some .directory

theorem SameDirectories.refl (t : FileTree) : SameDirectories t t := fun _ => Iff.rfl

theorem SameDirectories.trans {t'' : FileTree} (h : SameDirectories t t')
    (h' : SameDirectories t' t'') : SameDirectories t t'' :=
  fun location => (h' location).trans (h location)

theorem Grows.refl (t : FileTree) : Grows t t := fun _ => .inl rfl

/-- A directory stays one while the tree grows. -/
theorem Grows.directory (h : Grows t t') (hdir : t.at? location = some .directory) :
    t'.at? location = some .directory := by
  rcases h location with heq | ⟨hnone, -⟩
  · rw [heq, hdir]
  · rw [hdir] at hnone
    cases hnone

theorem Grows.trans {t'' : FileTree} (h : Grows t t') (h' : Grows t' t'') : Grows t t'' := by
  intro location
  rcases h' location with heq | ⟨hnone, hdir⟩
  · rw [heq]
    exact h location
  · rcases h location with heq | ⟨hnone', hdir'⟩
    · exact .inr ⟨heq ▸ hnone, hdir⟩
    · rw [hnone] at hdir'
      cases hdir'

/-- Files stay, and no others come. -/
theorem Grows.file_iff (h : Grows t t') {text : String} :
    t'.at? location = some (.file text) ↔ t.at? location = some (.file text) := by
  rcases h location with heq | ⟨hnone, hdir⟩
  · rw [heq]
  · simp [hnone, hdir]

/-- A new directory inside of one. -/
theorem IsTree.put_directory (h : t.IsTree) (hdir : t.at? location = some .directory)
    (name : String) : (t.put (location ++ [name]) .directory).IsTree := by
  have hinner : location ++ [name] ≠ [] := by simp
  have hkeep : ∀ l, t.at? l = some .directory →
      (t.put (location ++ [name]) .directory).at? l = some .directory := by
    intro l hl
    by_cases heq : l = location ++ [name]
    · rw [heq, at?_put_self hinner]
    · rw [at?_put_of_ne heq, hl]
  intro l hl
  by_cases heq : l = location ++ [name]
  · rw [heq, List.dropLast_concat]
    exact hkeep _ hdir
  · rw [at?_put_of_ne heq] at hl
    exact hkeep _ (h l hl)

/-- A tree grows by a directory where nothing was. -/
theorem grows_put_directory (h : t.at? location = none) : Grows t (t.put location .directory) := by
  have hne : location ≠ [] := ne_root (t := t) (by simp [h])
  intro l
  by_cases heq : l = location
  · subst heq
    exact .inr ⟨h, at?_put_self hne _⟩
  · exact .inl (at?_put_of_ne heq _)

/-! ## Ways -/

/-- Where parts of a path lead to from a location. -/
def walk? (t : FileTree) (location : Location) (parts : List Part) : Option Location :=
  parts.foldlM t.step? location

/-- A path is located by walking down its parts. -/
theorem locate?_eq_walk? (t : FileTree) (path : String) :
    t.locate? path = t.walk? [] (Path.parts path) := rfl

@[simp] theorem walk?_nil (t : FileTree) (location : Location) :
    t.walk? location [] = some location := rfl

theorem walk?_cons (t : FileTree) (location : Location) (part : Part) (rest : List Part) :
    t.walk? location (part :: rest) = (t.step? location part).bind fun l => t.walk? l rest := rfl

/-- A path in two pieces is walked piece by piece. -/
theorem walk?_append (t : FileTree) (location : Location) (front back : List Part) :
    t.walk? location (front ++ back) = (t.walk? location front).bind fun l => t.walk? l back :=
  List.foldlM_append ..

theorem walk?_singleton (t : FileTree) (location : Location) (part : Part) :
    t.walk? location [part] = t.step? location part := by
  rw [walk?_cons]
  cases t.step? location part <;> rfl

/-- There is no way on from what is no directory. -/
theorem step?_of_not_directory (h : t.at? location ≠ some .directory) (part : Part) :
    t.step? location part = none := if_neg h

/-- Only a directory can be left by a part of a path. -/
theorem directory_of_step? {part : Part} {next : Location} (h : t.step? location part = some next) :
    t.at? location = some .directory := by
  by_contra hdir
  rw [step?_of_not_directory hdir] at h
  cases h

/-- A step looks at nothing but whether it is taken from a directory. -/
theorem step?_congr (h : t'.at? location = some .directory ↔ t.at? location = some .directory)
    (part : Part) : t'.step? location part = t.step? location part := by
  unfold step?
  simp only [h]

/-- Where the directories are the same, paths lead to the same locations. -/
theorem walk?_congr (h : SameDirectories t t') (location : Location) (parts : List Part) :
    t'.walk? location parts = t.walk? location parts := by
  induction parts generalizing location with
  | nil => rfl
  | cons part rest ih =>
    rw [walk?_cons, walk?_cons, step?_congr (h location)]
    simp only [ih]

theorem locate?_congr (h : SameDirectories t t') (path : String) :
    t'.locate? path = t.locate? path :=
  walk?_congr h [] _

/-- A step that could be made can be made in a grown tree. -/
theorem Grows.step? (h : Grows t t') {part : Part} {next : Location}
    (hstep : t.step? location part = some next) : t'.step? location part = some next := by
  have hdir := directory_of_step? hstep
  rw [step?_congr (iff_of_true (h.directory hdir) hdir), hstep]

/-- So can a walk. -/
theorem Grows.walk? (h : Grows t t') {parts : List Part} {last : Location}
    (hwalk : t.walk? location parts = some last) : t'.walk? location parts = some last := by
  induction parts generalizing location with
  | nil => exact hwalk
  | cons part rest ih =>
    rw [walk?_cons] at hwalk ⊢
    obtain ⟨next, hnext, hrest⟩ := Option.bind_eq_some_iff.mp hwalk
    exact Option.bind_eq_some_iff.mpr ⟨next, h.step? hnext, ih hrest⟩

theorem step?_of_directory (h : t.at? location = some .directory) (part : Part) :
    t.step? location part = match part with
      | .root => some []
      | .here => some location
      | .above => some location.dropLast
      | .name name => if isName name then some (location ++ [name]) else none := if_pos h

/-- A name leads into a directory. -/
theorem step?_name {name : String} {next : Location}
    (hstep : t.step? location (.name name) = some next) :
    isName name = true ∧ next = location ++ [name] := by
  rw [step?_of_directory (directory_of_step? hstep)] at hstep
  simp only [Option.ite_none_right_eq_some, Option.some.injEq] at hstep
  exact ⟨hstep.1, hstep.2.symm⟩

/-- In a tree a step leads to a directory, or to a name in the one that it comes from. -/
theorem IsTree.step?_cases (h : t.IsTree) {part : Part} {next : Location}
    (hstep : t.step? location part = some next) :
    t.at? next = some .directory
      ∨ ∃ name, part = .name name ∧ isName name = true ∧ next = location ++ [name] := by
  have hdir := directory_of_step? hstep
  have hnext := hstep
  rw [step?_of_directory hdir] at hnext
  cases part with
  | root =>
    obtain rfl := Option.some.inj hnext
    exact .inl rfl
  | here =>
    obtain rfl := Option.some.inj hnext
    exact .inl hdir
  | above =>
    obtain rfl := Option.some.inj hnext
    exact .inl (h location (by simp [hdir]))
  | name name => exact .inr ⟨name, rfl, step?_name hstep⟩

/-- What a way leads to stands in a directory. -/
theorem IsTree.dropLast_of_walk? (h : t.IsTree) {parts : List Part} {last : Location}
    (hlocation : t.at? location.dropLast = some .directory)
    (hwalk : t.walk? location parts = some last) : t.at? last.dropLast = some .directory := by
  induction parts generalizing location with
  | nil =>
    obtain rfl := Option.some.inj hwalk
    exact hlocation
  | cons part rest ih =>
    obtain ⟨next, hnext, hrest⟩ := Option.bind_eq_some_iff.mp hwalk
    refine ih ?_ hrest
    rcases h.step?_cases hnext with hdir | ⟨name, -, -, rfl⟩
    · exact h next (by simp [hdir])
    · rw [List.dropLast_concat]
      exact directory_of_step? hnext

/-- A path that does not end in a name leads to a directory. -/
theorem IsTree.directory_of_isNameless (h : t.IsTree) {path : String} (hpath : Path.IsNameless path)
    (hlocate : t.locate? path = some location) : t.at? location = some .directory := by
  rw [locate?_eq_walk?] at hlocate
  rcases List.eq_nil_or_concat (Path.parts path) with hnil | ⟨front, part, hparts⟩
  · rw [hnil] at hlocate
    obtain rfl := Option.some.inj hlocate
    rfl
  · rw [hparts, List.concat_eq_append, walk?_append] at hlocate
    obtain ⟨l, -, hlast⟩ := Option.bind_eq_some_iff.mp hlocate
    rw [walk?_singleton] at hlast
    rcases h.step?_cases hlast with hdir | ⟨name, rfl, -, -⟩
    · exact hdir
    · exact absurd (hparts.trans (List.concat_eq_append ..)) (hpath front name)

/-! ## Making directories -/

/-- What making the directories along parts of a path does, from a directory on. -/
structure MadeAlong (t : FileTree) (location : Location) (parts : List Part)
    (result : FileTree × Bool) : Prop where
  grows : Grows t result.1
  isTree : result.1.IsTree
  /-- What is new stands on the way. -/
  onTheWay : ∀ l, result.1.at? l ≠ t.at? l → ∃ front, front <+: parts
    ∧ result.1.walk? location front = some l
  reached : result.2 = true → ∃ l, result.1.walk? location parts = some l
    ∧ result.1.at? l = some .directory
  /-- Where it stopped, no way leads on. -/
  stopped : result.2 = false → ∀ part, result.1.walk? location (parts ++ [part]) = none

/-- Nothing was made, since the way ends at its next part. -/
theorem MadeAlong.stop (h : t.IsTree) {part : Part} {rest : List Part}
    (hend : ∀ next, t.step? location part = some next → t.at? next ≠ some .directory) :
    MadeAlong t location (part :: rest) (t, false) where
  grows := .refl t
  isTree := h
  onTheWay _ hl := absurd rfl hl
  reached := nofun
  stopped _ part' := by
    rw [List.cons_append, walk?_cons]
    cases hstep : t.step? location part with
    | none => rfl
    | some next =>
      obtain ⟨first, others, hothers⟩ : ∃ first others, rest ++ [part'] = first :: others :=
        List.exists_cons_of_ne_nil (by simp)
      rw [Option.bind_some, hothers, walk?_cons, step?_of_not_directory (hend next hstep)]
      rfl

/-- One part more in front, which leads to a directory that was there or was made. -/
theorem MadeAlong.cons {t₁ : FileTree} {next : Location} {part : Part} {rest : List Part}
    {result : FileTree × Bool} (hstep : t.step? location part = some next) (hgrows : Grows t t₁)
    (hnew : ∀ l, t₁.at? l ≠ t.at? l → l = next) (h : MadeAlong t₁ next rest result) :
    MadeAlong t location (part :: rest) result := by
  have hstep' : result.1.step? location part = some next := (hgrows.trans h.grows).step? hstep
  have hwalk : ∀ parts, result.1.walk? location (part :: parts) = result.1.walk? next parts := by
    intro parts
    rw [walk?_cons, hstep']
    rfl
  constructor
  case grows => exact hgrows.trans h.grows
  case isTree => exact h.isTree
  case onTheWay =>
    intro l hl
    by_cases hsame : result.1.at? l = t₁.at? l
    · -- a place that the first step has made
      obtain rfl := hnew l (hsame ▸ hl)
      exact ⟨[part], List.cons_prefix_cons.mpr ⟨rfl, List.nil_prefix⟩, by rw [hwalk, walk?_nil]⟩
    · -- a place that was made further on
      obtain ⟨front, hfront, hl⟩ := h.onTheWay l hsame
      exact ⟨part :: front, List.cons_prefix_cons.mpr ⟨rfl, hfront⟩, by rw [hwalk, hl]⟩
  case reached =>
    intro hok
    obtain ⟨l, hl, hdir⟩ := h.reached hok
    exact ⟨l, by rw [hwalk, hl], hdir⟩
  case stopped =>
    intro hfail part'
    rw [List.cons_append, hwalk]
    exact h.stopped hfail part'

/-- **Directories along a way.** Each is there before or is made, up to where the way ends. -/
theorem madeAlong_makeAlong (h : t.IsTree) (hdir : t.at? location = some .directory)
    (most : Option Nat) (parts : List Part) :
    MadeAlong t location parts (t.makeAlong location most parts) := by
  induction parts generalizing t location most with
  | nil =>
    exact ⟨.refl t, h, fun _ hl => absurd rfl hl, fun _ => ⟨location, rfl, hdir⟩, nofun⟩
  | cons part rest ih =>
    unfold makeAlong
    split
    next hstep => exact .stop h fun next hnext => by rw [hstep] at hnext; cases hnext
    next next hstep =>
      split
      next hnext => exact .cons hstep (.refl t) (fun _ hl => absurd rfl hl) (ih h hnext most)
      next hfile =>
        refine .stop h fun next' hnext' hdir' => ?_
        obtain rfl := Option.some.inj (hstep.symm.trans hnext')
        rw [hfile] at hdir'
        cases hdir'
      next hnone =>
        split
        next =>
          refine .stop h fun next' hnext' hdir' => ?_
          obtain rfl := Option.some.inj (hstep.symm.trans hnext')
          rw [hnone] at hdir'
          cases hdir'
        next =>
          -- a directory that is not there can only be one of a name
          obtain hbad | ⟨name, rfl, -, rfl⟩ := h.step?_cases hstep
          · rw [hnone] at hbad
            cases hbad
          · have hinner : location ++ [name] ≠ [] := by simp
            refine .cons hstep (grows_put_directory hnone) (fun l hl => ?_)
              (ih (h.put_directory hdir name) (at?_put_self hinner _) _)
            by_contra hne
            exact hl (at?_put_of_ne hne _)

end TypedEntities.FileTree
