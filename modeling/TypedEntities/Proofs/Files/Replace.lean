import Mathlib
import TypedEntities.Proofs.Files.Directories

/-!
# Replacing a file

A text goes to the temporary file beside its target, and the temporary file takes the target's
place. Up to that last step nothing but the temporary file is touched (`Touched`), so a failure leaves
at most that behind; the last step changes both places at once (`Replaced`). One of the two is what a
call does (`replace_spec`). Neither changes a directory, so the paths lead where they led before.
-/

namespace TypedEntities.FileTree

variable {t t' t'' : FileTree} {location : Location}

/-! ## Changes at one location -/

/-- Two trees that differ in nothing but what is at a location. -/
def Sets (t t' : FileTree) (location : Location) (entry : Option FileEntry) : Prop :=
  ∀ l, t'.at? l = if l = location then entry else t.at? l

/-- To put an entry sets its location. -/
theorem sets_put (h : location ≠ []) (entry : FileEntry) :
    Sets t (t.put location entry) location (some entry) := by
  intro l
  split
  next heq => rw [heq, at?_put_self h]
  next hne => rw [at?_put_of_ne hne]

/-- To take an entry away sets its location to nothing. -/
theorem sets_erase (h : location ≠ []) : Sets t (t.erase location) location none := by
  intro l
  split
  next heq => rw [heq, at?_erase_self h]
  next hne => rw [at?_erase_of_ne hne]

/-- Of two changes at one location the last one counts. -/
theorem Sets.trans {entry entry' : Option FileEntry} (h : Sets t t' location entry)
    (h' : Sets t' t'' location entry') : Sets t t'' location entry' := by
  intro l
  rw [h' l, h l]
  split <;> rfl

theorem Sets.at?_self {entry : Option FileEntry} (h : Sets t t' location entry) :
    t'.at? location = entry := by
  rw [h, if_pos rfl]

theorem Sets.at?_of_ne {entry : Option FileEntry} (h : Sets t t' location entry) {l : Location}
    (hne : l ≠ location) : t'.at? l = t.at? l := by
  rw [h, if_neg hne]

/-- Where no directory was and none comes, the directories stay the same. -/
theorem Sets.sameDirectories {entry : Option FileEntry} (h : Sets t t' location entry)
    (hbefore : t.at? location ≠ some .directory) (hentry : entry ≠ some .directory) :
    SameDirectories t t' := by
  intro l
  by_cases heq : l = location
  · subst heq
    rw [h.at?_self]
    exact iff_of_false hentry hbefore
  · rw [h.at?_of_ne heq]

/-- A tree with the same directories is a tree, if what is in it stands in one of them. -/
theorem IsTree.of_sameDirectories (hsame : SameDirectories t t')
    (hnew : ∀ l, t'.at? l ≠ none → t.at? l.dropLast = some .directory) : t'.IsTree :=
  fun l hl => (hsame _).mpr (hnew l hl)

/-! ## The temporary file -/

/-- At most the file at a path was touched: it holds a part of the text, or what it held before. -/
structure Touched (t : FileTree) (path text : String) (t' : FileTree) : Prop where
  directories : SameDirectories t t'
  others : ∀ l, t.locate? path ≠ some l → t'.at? l = t.at? l
  content : ∀ l s, t.locate? path = some l → t'.at? l = some (.file s) →
    s.toList <+: text.toList ∨ t.at? l = some (.file s)

theorem Touched.refl (t : FileTree) (path text : String) : Touched t path text t where
  directories := .refl t
  others _ _ := rfl
  content _ _ _ h := .inr h

/-- A tree stays one when a file in it is touched. -/
theorem Touched.isTree {path text : String} (h : Touched t path text t') (ht : t.IsTree) :
    t'.IsTree := by
  refine .of_sameDirectories h.directories fun l hl => ?_
  by_cases hpath : t.locate? path = some l
  · exact ht.dropLast_of_walk? rfl hpath
  · rw [h.others l hpath] at hl
    exact ht l hl

/-- A file that gets the beginning of a text is touched. -/
theorem Sets.touched {path text s : String} (h : Sets t t' location (some (.file s)))
    (hpath : t.locate? path = some location) (hdir : t.at? location ≠ some .directory)
    (hs : s.toList <+: text.toList) : Touched t path text t' where
  directories := h.sameDirectories hdir nofun
  others l hl := h.at?_of_ne fun heq => hl (heq ▸ hpath)
  content l s' hl hs' := by
    obtain rfl := Option.some.inj (hpath.symm.trans hl)
    rw [h.at?_self] at hs'
    cases hs'
    exact .inl hs

/-- A file is created where there is no directory. -/
theorem create?_eq_some {path : String} (h : t.create? path = some (t', location)) :
    t.locate? path = some location ∧ t.at? location ≠ some .directory
      ∧ t' = t.put location (.file "") := by
  obtain ⟨l, hl, hcreate⟩ := Option.bind_eq_some_iff.mp h
  split at hcreate
  next => cases hcreate
  next hdir =>
    cases hcreate
    exact ⟨hl, hdir, rfl⟩

/-- What is written is at the path as a whole, if nothing failed, and nothing else was touched. -/
theorem writeText_spec (t : FileTree) (fault : Option WriteFault) (path text : String) :
    Touched t path text (t.writeText fault path text).1
      ∧ ((t.writeText fault path text).2 = true → ∃ l, t.locate? path = some l
        ∧ t.at? l ≠ some .directory
        ∧ Sets t (t.writeText fault path text).1 l (some (.file text))) := by
  unfold writeText
  split
  -- it fails before the file is opened
  next => exact ⟨.refl t path text, nofun⟩
  next =>
    split
    next => exact ⟨.refl t path text, nofun⟩
    next t₁ l hcreate =>
      obtain ⟨hl, hdir, rfl⟩ := create?_eq_some hcreate
      have hsets : ∀ s, Sets t ((t.put l (.file "")).put l (.file s)) l (some (.file s)) := fun s =>
        (sets_put (ne_root hdir) _).trans (sets_put (ne_root hdir) _)
      split
      next written =>
        refine ⟨(hsets _).touched hl hdir ?_, nofun⟩
        rw [String.toList_ofList]
        exact List.take_prefix ..
      next => exact ⟨(hsets text).touched hl hdir List.prefix_rfl, nofun⟩
      next =>
        exact ⟨(hsets text).touched hl hdir List.prefix_rfl, fun _ => ⟨l, hl, hdir, hsets text⟩⟩

/-- Removing a file leaves everything else alone. -/
theorem remove_spec (t : FileTree) (path : String) :
    SameDirectories t (t.remove path)
      ∧ (∀ l, t.locate? path ≠ some l → (t.remove path).at? l = t.at? l)
      ∧ ∀ l s, t.locate? path = some l → (t.remove path).at? l ≠ some (.file s) := by
  unfold remove
  split
  next hnone => exact ⟨.refl t, fun _ _ => rfl, fun l s hl => by rw [hnone] at hl; cases hl⟩
  next l hl =>
    split
    next s hs =>
      have hdir : t.at? l ≠ some .directory := by simp [hs]
      have hsets := sets_erase (t := t) (ne_root hdir)
      refine ⟨hsets.sameDirectories hdir nofun, fun l' hl' => ?_, fun l' s' hl' => ?_⟩
      · exact hsets.at?_of_ne fun heq => hl' (heq ▸ hl)
      · obtain rfl := Option.some.inj (hl.symm.trans hl')
        simp [hsets.at?_self]
    next hnot =>
      refine ⟨.refl t, fun _ _ => rfl, fun l' s hl' hs => ?_⟩
      obtain rfl := Option.some.inj (hl.symm.trans hl')
      exact hnot s hs

/-- The tree after a failure, when the temporary file was taken away. -/
def cleaned (t : FileTree) (mishap : Mishap) (target : String) : FileTree :=
  if mishap.cleanUpFails then t else t.remove (temporary target)

/-- A replacement writes the temporary file and renames it, and cleans up if either goes wrong. -/
theorem replace_eq (t : FileTree) (mishap : Mishap) (target text : String) :
    t.replace mishap target text = match t.writeText mishap.fault (temporary target) text with
      | (t', false) => (t'.cleaned mishap target, false)
      | (t', true) =>
        match if mishap.fault = some .rename then none
          else t'.rename? (temporary target) target with
        | some t'' => (t'', true)
        | none => (t'.cleaned mishap target, false) := rfl

/-- Cleaning up after a failure touches nothing more, and leaves no file unless it fails itself. -/
theorem Touched.cleaned {mishap : Mishap} {target text : String}
    (h : Touched t (temporary target) text t') :
    Touched t (temporary target) text (t'.cleaned mishap target)
      ∧ ∀ l s, t.locate? (temporary target) = some l →
        (t'.cleaned mishap target).at? l = some (.file s) → mishap.cleanUpFails = true := by
  unfold FileTree.cleaned
  split
  next hfails => exact ⟨h, fun _ _ _ _ => hfails⟩
  next =>
    obtain ⟨hdirectories, hothers, hgone⟩ := t'.remove_spec (temporary target)
    rw [locate?_congr h.directories] at hothers hgone
    refine ⟨⟨h.directories.trans hdirectories, fun l hl => ?_, fun l s hl hs => ?_⟩,
      fun l s hl hs => ?_⟩
    · exact (hothers l hl).trans (h.others l hl)
    · exact absurd hs (hgone l s hl)
    · exact absurd hs (hgone l s hl)

/-! ## Taking the target's place -/

/-- What can be renamed is a file, and what is there instead of it afterwards is no directory. -/
theorem rename?_eq_some {source target : String} (h : t.rename? source target = some t') :
    ∃ l l' text, t.locate? source = some l ∧ t.locate? target = some l'
      ∧ t.at? l = some (.file text) ∧ Path.endsAsDirectory target = false
      ∧ t.at? l' ≠ some .directory ∧ t' = (t.erase l).put l' (.file text) := by
  obtain ⟨l, hl, h⟩ := Option.bind_eq_some_iff.mp h
  obtain ⟨l', hl', h⟩ := Option.bind_eq_some_iff.mp h
  split at h
  next text hfile =>
    split at h
    next => cases h
    next hfree =>
      cases h
      simp only [Bool.or_eq_true, decide_eq_true_eq, not_or, Bool.not_eq_true] at hfree
      exact ⟨l, l', text, hl, hl', hfile, hfree.1, hfree.2, rfl⟩
  next => cases h

/-- A file can be renamed to any location that is no directory. -/
theorem rename?_of_file {source target text : String} {l l' : Location}
    (hl : t.locate? source = some l) (hl' : t.locate? target = some l')
    (hfile : t.at? l = some (.file text)) (htarget : Path.endsAsDirectory target = false)
    (hdir : t.at? l' ≠ some .directory) :
    t.rename? source target = some ((t.erase l).put l' (.file text)) := by
  unfold rename?
  simp [hl, hl', hfile, htarget, hdir]

/-- A file with the text is at the target, and nothing is at the temporary file's place. -/
structure Replaced (t : FileTree) (target text : String) (t' : FileTree) : Prop where
  file : Path.endsAsDirectory target = false
  place : ∃ l l', t.locate? (temporary target) = some l ∧ t.locate? target = some l'
    ∧ t.at? l ≠ some .directory ∧ t.at? l' ≠ some .directory
    ∧ ∀ other, t'.at? other
      = if other = l' then some (.file text) else if other = l then none else t.at? other

theorem Replaced.sameDirectories {target text : String} (h : Replaced t target text t') :
    SameDirectories t t' := by
  obtain ⟨l, l', -, -, hdir, hdir', hat⟩ := h.place
  intro other
  rw [hat]
  split
  next heq => exact iff_of_false nofun (heq ▸ hdir')
  next =>
    split
    next heq => exact iff_of_false nofun (heq ▸ hdir)
    next => rfl

theorem Replaced.isTree {target text : String} (h : Replaced t target text t') (ht : t.IsTree) :
    t'.IsTree := by
  obtain ⟨l, l', -, hl', -, -, hat⟩ := h.place
  refine .of_sameDirectories h.sameDirectories fun other hother => ?_
  rw [hat] at hother
  split at hother
  next heq => exact heq ▸ ht.dropLast_of_walk? rfl hl'
  next =>
    split at hother
    next => exact absurd rfl hother
    next => exact ht other hother

/-- **Replacing a file.** Either the target is replaced, or nothing but the temporary file was
touched, and that is left behind only if it cannot be removed. -/
theorem replace_spec (t : FileTree) (mishap : Mishap) (target text : String) :
    ((t.replace mishap target text).2 = true →
        Replaced t target text (t.replace mishap target text).1)
      ∧ ((t.replace mishap target text).2 = false →
        Touched t (temporary target) text (t.replace mishap target text).1
          ∧ ∀ l s, t.locate? (temporary target) = some l →
            (t.replace mishap target text).1.at? l = some (.file s) →
              mishap.cleanUpFails = true) := by
  obtain ⟨htouched, hwritten⟩ := writeText_spec t mishap.fault (temporary target) text
  rw [replace_eq]
  split
  next t₁ heq =>
    -- the temporary file could not be written
    rw [heq] at htouched
    exact ⟨nofun, fun _ => htouched.cleaned⟩
  next t₁ heq =>
    rw [heq] at htouched hwritten
    split
    next t₂ hrename =>
      refine ⟨fun _ => ?_, nofun⟩
      -- what is moved to the target is the place that was written just before
      obtain ⟨l, hl, hdir, hsets⟩ := hwritten rfl
      rw [Option.ite_none_left_eq_some] at hrename
      obtain ⟨l₁, l', text', hl₁, hl', hfile, hplain, hdir', rfl⟩ := rename?_eq_some hrename.2
      rw [locate?_congr htouched.directories] at hl₁ hl'
      obtain rfl := Option.some.inj (hl.symm.trans hl₁)
      obtain rfl : text = text' := by
        rw [hsets.at?_self] at hfile
        exact FileEntry.file.inj (Option.some.inj hfile)
      refine ⟨hplain, l, l', hl, hl', hdir, mt (htouched.directories l').mpr hdir', fun other => ?_⟩
      rw [sets_put (ne_root hdir') _ other, sets_erase (ne_root hdir) other, hsets other]
      split
      next => rfl
      next => split <;> rfl
    next => exact ⟨nofun, fun _ => htouched.cleaned⟩

/-- Nothing else than what the tree does not allow makes it fail. -/
theorem replace_of_free {mishap : Mishap} {target : String} {l l' : Location} (text : String)
    (hfault : mishap.fault = none) (hl : t.locate? (temporary target) = some l)
    (hl' : t.locate? target = some l') (hdir : t.at? l ≠ some .directory)
    (hdir' : t.at? l' ≠ some .directory) (htarget : Path.endsAsDirectory target = false) :
    (t.replace mishap target text).2 = true := by
  have hcreate : t.create? (temporary target) = some (t.put l (.file ""), l) := by
    unfold create?
    simp [hl, hdir]
  have hwrite : t.writeText mishap.fault (temporary target) text
      = ((t.put l (.file "")).put l (.file text), true) := by
    unfold writeText
    rw [hfault, hcreate]
    rfl
  have hsets := (sets_put (t := t) (ne_root hdir) (.file "")).trans
    (sets_put (t := t.put l (.file "")) (ne_root hdir) (.file text))
  -- writing the temporary file moves no directory, so both paths lead where they did
  have hsame := hsets.sameDirectories hdir nofun
  rw [replace_eq, hwrite]
  simp only [hfault, reduceCtorEq, if_false]
  rw [rename?_of_file ((locate?_congr hsame _).trans hl) ((locate?_congr hsame _).trans hl')
      hsets.at?_self htarget (mt (hsame l').mp hdir')]

end TypedEntities.FileTree
