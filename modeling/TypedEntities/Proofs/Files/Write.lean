import Mathlib
import TypedEntities.Proofs.Files.Replace

/-!
# Writing a file as a whole

The directories above a target are made first (`madeParents_makeParents`), then the target is
replaced. If that works the target holds the text; if it fails the target is what it was
(`allOrNothing_write`).

The directories stay after a failure. So a path that leads through its own target and back, such as
`x/../x`, finds a directory where nothing was (`MadeOnTheWay`), and no other path does: without two
points in it, a way only leads further from the root.
-/

namespace TypedEntities.FileTree

open TypedEntities.Path (Part)

variable {t t' t'' : FileTree} {location : Location} {target : String}

/-! ## The directory of a target -/

/-- A target is one part further than its parent. -/
theorem exists_parts_target {parent : String} (h : Path.parent? target = some parent) :
    ∃ part, Path.parts target = Path.parts parent ++ [part] :=
  let ⟨_, _, part, _, _, _, hparts, _⟩ := Path.exists_last_part h
  ⟨part, hparts⟩

theorem temporary_cases (target : String) :
    (temporary target = target ∧ Path.IsNameless target)
      ∨ ∃ parent name, Path.parent? target = some parent
        ∧ Path.parts target = Path.parts parent ++ [.name (String.ofList name)]
        ∧ Path.parts (temporary target)
          = Path.parts parent ++ [.name (String.ofList (Path.stem name ++ ['.', 't', 'm', 'p']))]
        ∧ Path.extension? target = (Path.extensionOf? name).map String.ofList :=
  Path.withExtension_cases target (by decide) (by decide)

/-- The temporary file stands in the same directory. -/
theorem exists_parts_temporary {parent : String} (h : Path.parent? target = some parent) :
    ∃ part, Path.parts (temporary target) = Path.parts parent ++ [part] := by
  rcases temporary_cases target with ⟨hsame, -⟩ | ⟨parent', name, hparent, -, hparts, -⟩
  · rw [hsame]
    exact exists_parts_target h
  · obtain rfl := Option.some.inj (h.symm.trans hparent)
    exact ⟨_, hparts⟩

/-- The target and its temporary file are two places, unless a directory is there. -/
theorem IsTree.ne_temporary (h : t.IsTree) {l l' : Location}
    (hext : Path.extension? target ≠ some "tmp") (hl : t.locate? target = some l)
    (hl' : t.locate? (temporary target) = some l') : t.at? l = some .directory ∨ l ≠ l' := by
  rcases temporary_cases target with ⟨-, hnameless⟩ | ⟨parent, name, -, hparts, htemporary, hname⟩
  · exact .inl (h.directory_of_isNameless hnameless hl)
  · right
    rintro rfl
    rw [locate?_eq_walk?, hparts, walk?_append] at hl
    rw [locate?_eq_walk?, htemporary, walk?_append] at hl'
    obtain ⟨outer, houter, hlast⟩ := Option.bind_eq_some_iff.mp hl
    obtain ⟨outer', houter', hlast'⟩ := Option.bind_eq_some_iff.mp hl'
    obtain rfl := Option.some.inj (houter.symm.trans houter')
    rw [walk?_singleton] at hlast hlast'
    -- both lie in the same directory, so equal places would have equal names
    have hnames := (step?_name hlast).2.symm.trans (step?_name hlast').2
    have hsame : Path.stem name ++ ['.', 't', 'm', 'p'] = name :=
      String.ofList_injective (List.singleton_inj.mp (List.append_cancel_left hnames)).symm
    rw [hname, Path.extensionOf?_of_stem hsame] at hext
    exact hext rfl

/-! ## What a path shows -/

/-- What a path shows at the location it leads to. A path that ends as only a directory can shows no
file. -/
def shownAt (t : FileTree) (path : String) (location : Location) : Option FileEntry :=
  match t.at? location with
  | some (.file text) => if Path.endsAsDirectory path then none else some (.file text)
  | entry => entry

theorem shownAt_congr (h : t'.at? location = t.at? location) (path : String) :
    t'.shownAt path location = t.shownAt path location := by
  unfold shownAt
  rw [h]

theorem shownAt_of_endsAsDirectory {path : String} (hpath : Path.endsAsDirectory path = true)
    (h : t'.at? location = some .directory ↔ t.at? location = some .directory) :
    t'.shownAt path location = t.shownAt path location := by
  unfold shownAt
  rw [hpath]
  rcases hbefore : t.at? location with _ | _ | _ <;>
    rcases hafter : t'.at? location with _ | _ | _ <;>
      simp_all

/-- As long as only the temporary file is touched the target shows what it showed. -/
theorem Touched.shownAt {text : String} (h : Touched t (temporary target) text t') (ht : t.IsTree)
    (hext : Path.endsAsDirectory target = true ∨ Path.extension? target ≠ some "tmp")
    (hl : t.locate? target = some location) :
    t'.shownAt target location = t.shownAt target location := by
  rcases hext with hends | hext
  · exact shownAt_of_endsAsDirectory hends (h.directories location)
  by_cases htemporary : t.locate? (temporary target) = some location
  · have hdir := (ht.ne_temporary hext hl htemporary).resolve_right fun hne => hne rfl
    exact shownAt_congr (((h.directories location).mpr hdir).trans hdir.symm) target
  · exact shownAt_congr (h.others location htemporary) target

/-! ## Ways through a location -/

/-- The way of a path comes to a location before the path's last part. -/
def PassesThrough (t : FileTree) (path : String) (location : Location) : Prop :=
  ∃ parent front, Path.parent? path = some parent ∧ front <+: Path.parts parent
    ∧ t.walk? [] front = some location

theorem PassesThrough.congr {path : String} (h : SameDirectories t t')
    (hpass : t.PassesThrough path location) : t'.PassesThrough path location := by
  obtain ⟨parent, front, hparent, hfront, hwalk⟩ := hpass
  exact ⟨parent, front, hparent, hfront, (walk?_congr h [] front).trans hwalk⟩

/-- A way by names alone leads further from the root. -/
theorem length_le_of_walk? {parts : List Part} {last : Location}
    (hnames : ∀ part ∈ parts, ∃ name, part = .name name) (h : t.walk? location parts = some last) :
    location.length ≤ last.length := by
  induction parts generalizing location with
  | nil =>
    obtain rfl := Option.some.inj h
    exact le_rfl
  | cons part rest ih =>
    obtain ⟨next, hnext, hrest⟩ := Option.bind_eq_some_iff.mp h
    obtain ⟨⟨name, rfl⟩, hrestNames⟩ := List.forall_mem_cons.mp hnames
    refine le_trans ?_ (ih hrestNames hrest)
    simp [(step?_name hnext).2]

/-- The way to a place below the root comes through it before the last part only if it leads back. -/
theorem PassesThrough.above_mem {path : String} (h : t.PassesThrough path location)
    (hl : t.locate? path = some location) (hinner : location ≠ []) :
    .above ∈ Path.parts path := by
  by_contra habove
  obtain ⟨parent, front, hparent, ⟨back, hback⟩, hfront⟩ := h
  obtain ⟨part, hparts⟩ := exists_parts_target hparent
  have hne : front ≠ [] := by
    rintro rfl
    exact hinner (Option.some.inj hfront).symm
  have hsplit : Path.parts path = front ++ (back ++ [part]) := by
    rw [hparts, ← hback, List.append_assoc]
  -- without a step up all parts behind the first are names
  have hnames : ∀ p ∈ back ++ [part], ∃ name, p = .name name := by
    intro p hp
    have htail : p ∈ (Path.parts path).tail := by
      rw [hsplit, List.tail_append_of_ne_nil hne]
      exact List.mem_append_right _ hp
    refine (Path.cases_of_mem_tail htail).resolve_left ?_
    · rintro rfl
      exact habove (hsplit ▸ List.mem_append_right _ hp)
  rw [locate?_eq_walk?, hsplit, walk?_append, hfront, Option.bind_some, walk?_append] at hl
  obtain ⟨outer, houter, hlast⟩ := Option.bind_eq_some_iff.mp hl
  obtain ⟨hbackNames, hpartName⟩ := List.forall_mem_append.mp hnames
  obtain ⟨name, rfl⟩ := hpartName part (List.mem_singleton_self _)
  rw [walk?_singleton] at hlast
  -- names only lead down, so the end would be below the place that the way came through
  have hlength := length_le_of_walk? hbackNames houter
  have hlonger := congrArg List.length (step?_name hlast).2
  rw [List.length_append, List.length_singleton] at hlonger
  omega

/-! ## Making the directories above -/

/-- A path with a character that no path can have leads nowhere. -/
theorem walk?_eq_none_of_not_isName {name : String} (hname : isName name = false) {parts : List Part}
    (hmem : .name name ∈ parts) : t.walk? location parts = none := by
  rw [Option.eq_none_iff_forall_ne_some]
  intro last h
  induction parts generalizing location with
  | nil => cases hmem
  | cons part rest ih =>
    obtain ⟨next, hnext, hrest⟩ := Option.bind_eq_some_iff.mp h
    rcases List.mem_cons.mp hmem with rfl | hmem
    · rw [(step?_name hnext).1] at hname
      cases hname
    · exact ih hmem hrest

/-- What making the directories above a target does. -/
structure MadeParents (t : FileTree) (target : String) (result : FileTree × Except Failure Unit) :
    Prop where
  grows : Grows t result.1
  isTree : result.1.IsTree
  /-- What is new stands on the way to the target. -/
  onTheWay : ∀ l, result.1.at? l ≠ t.at? l → result.1.PassesThrough target l
  /-- After a failure no way leads to the target or its temporary file. -/
  failed : ∀ f, result.2 = .error f → (∃ parent reason, Path.parent? target = some parent
      ∧ f = .io parent reason)
    ∧ result.1.locate? target = none ∧ result.1.locate? (temporary target) = none

/-- No way leads on from a directory that could not be made. -/
theorem locate?_eq_none_of_stopped {parent : String} (hparent : Path.parent? target = some parent)
    (h : ∀ part, t.walk? [] (Path.parts parent ++ [part]) = none) :
    t.locate? target = none ∧ t.locate? (temporary target) = none := by
  obtain ⟨part, hpart⟩ := exists_parts_target hparent
  obtain ⟨part', hpart'⟩ := exists_parts_temporary hparent
  rw [locate?_eq_walk?, locate?_eq_walk?, hpart, hpart']
  exact ⟨h part, h part'⟩

theorem madeAlong_makeDirectories (h : t.IsTree) (path : String) (most : Option Nat) :
    MadeAlong t [] (Path.parts path) (t.makeDirectories path most) := by
  unfold makeDirectories
  split
  next hzero =>
    refine ⟨.refl t, h, fun _ hl => absurd rfl hl, nofun, fun _ part => ?_⟩
    obtain ⟨name, hname, hmem⟩ := Path.exists_name_of_mem (c := Char.ofNat 0)
      (by simpa using hzero) (by decide) (by decide)
    exact walk?_eq_none_of_not_isName (by simp [isName, hmem]) (List.mem_append_left _ hname)
  next => exact madeAlong_makeAlong h rfl most _

theorem madeParents_makeParents (h : t.IsTree) (mishap : Mishap) (target : String) :
    MadeParents t target (t.makeParents mishap target) := by
  unfold makeParents
  cases hparent : Path.parent? target with
  | none => exact ⟨.refl t, h, fun _ hl => absurd rfl hl, nofun⟩
  | some parent =>
    have hmade := madeAlong_makeDirectories h parent mishap.most
    -- each directory that was made lies on the way to the target
    have hway : ∀ l, (t.makeDirectories parent mishap.most).1.at? l ≠ t.at? l →
        (t.makeDirectories parent mishap.most).1.PassesThrough target l := fun l hl =>
      let ⟨front, hfront, hwalk⟩ := hmade.onTheWay l hl
      ⟨parent, front, hparent, hfront, hwalk⟩
    simp only
    split
    next t₁ heq =>
      rw [heq] at hmade hway
      exact ⟨hmade.grows, hmade.isTree, hway, nofun⟩
    next t₁ heq =>
      rw [heq] at hmade hway
      refine ⟨hmade.grows, hmade.isTree, hway, fun f hf => ?_⟩
      exact ⟨⟨parent, _, hparent, (Except.error.inj hf).symm⟩,
        locate?_eq_none_of_stopped hparent (hmade.stopped rfl)⟩

/-! ## All or nothing -/

/-- A directory that was made at a location which a path leads to, as the path leads through it and
back. -/
structure MadeOnTheWay (t t' : FileTree) (path : String) (location : Location) : Prop where
  before : t.at? location = none
  after : t'.at? location = some .directory
  through : t'.PassesThrough path location
  back : .above ∈ Path.parts path

/-- What writing a text to a target does, for a tree, what goes wrong on its own, and the result. The
target and its temporary file are where their paths lead in the end. -/
structure AllOrNothing (t : FileTree) (mishap : Mishap) (target text : String)
    (result : FileTree × Except Failure Unit) : Prop where
  isTree : result.1.IsTree
  /-- No directory is lost. -/
  directories : ∀ l, t.at? l = some .directory → result.1.at? l = some .directory
  /-- New directories stand on the way to the target. -/
  made : ∀ l, result.1.at? l = some .directory →
    t.at? l = some .directory ∨ result.1.PassesThrough target l
  /-- No other file changes, comes or goes. -/
  others : ∀ l, result.1.locate? target ≠ some l → result.1.locate? (temporary target) ≠ some l →
    ∀ s, result.1.at? l = some (.file s) ↔ t.at? l = some (.file s)
  /-- After a success the target is a file with the text. -/
  written : result.2 = .ok () → ∃ l, result.1.locate? target = some l
    ∧ result.1.shownAt target l = some (.file text)
  /-- After a success there is no temporary file. -/
  gone : result.2 = .ok () → ∃ l, result.1.locate? (temporary target) = some l
    ∧ result.1.at? l = none
  /-- After a failure the target is what it was. -/
  kept : ∀ f, result.2 = .error f → ∀ l, result.1.locate? target = some l →
    result.1.shownAt target l = t.shownAt target l ∨ MadeOnTheWay t result.1 target l
  /-- A target that nothing leads to after a failure was not there before. -/
  absent : ∀ f, result.2 = .error f → result.1.locate? target = none → t.locate? target = none
  /-- A failure is about the target or the directory above it. -/
  blamed : ∀ f, result.2 = .error f → ∃ place reason, f = .io place reason
    ∧ (place = target ∨ Path.parent? target = some place)
  /-- After a failure the temporary file is there only if it cannot be removed. What it holds was
  there before or is a part of the text. -/
  left : ∀ f, result.2 = .error f → ∀ l s, result.1.locate? (temporary target) = some l →
    result.1.at? l = some (.file s) →
      mishap.cleanUpFails = true ∧ (s.toList <+: text.toList ∨ t.at? l = some (.file s))
  /-- Without a fault a failure is due to what is in the tree. -/
  complete : mishap.fault = none → ∀ l l', result.1.locate? target = some l →
    result.1.locate? (temporary target) = some l' → result.1.at? l ≠ some .directory →
    result.1.at? l' ≠ some .directory → Path.endsAsDirectory target = false → result.2 = .ok ()

variable {t₁ t₂ : FileTree} {mishap : Mishap} {text : String}

/-- The steps after the directories change none. -/
theorem MadeParents.directory_cases {outcome : Except Failure Unit}
    (h : MadeParents t target (t₁, outcome)) (hsame : SameDirectories t₁ t₂)
    (hdir : t₂.at? location = some .directory) :
    t.at? location = some .directory ∨ t₂.PassesThrough target location := by
  rw [or_iff_not_imp_left]
  refine fun hold => (h.onTheWay location fun heq => hold ?_).congr hsame
  rw [← heq, ← hsame location, hdir]

/-- What a target was before the directories were made it is after that, unless it was made one. -/
theorem MadeParents.shownAt_or {outcome : Except Failure Unit}
    (h : MadeParents t target (t₁, outcome)) (hl : t₁.locate? target = some location) :
    t₁.shownAt target location = t.shownAt target location
      ∨ MadeOnTheWay t t₁ target location := by
  rcases h.grows location with heq | ⟨hnone, hdir⟩
  · exact .inl (shownAt_congr heq target)
  · have hpass := h.onTheWay location (by simp [hnone, hdir])
    exact .inr ⟨hnone, hdir, hpass, hpass.above_mem hl (ne_root (t := t) (by simp [hnone]))⟩

theorem MadeOnTheWay.congr {path : String} (h : MadeOnTheWay t t₁ path location)
    (hsame : SameDirectories t₁ t₂) : MadeOnTheWay t t₂ path location :=
  ⟨h.before, (hsame location).mpr h.after, h.through.congr hsame, h.back⟩

theorem Grows.locate?_eq_none (h : Grows t t') {path : String} (hnone : t'.locate? path = none) :
    t.locate? path = none := by
  rw [Option.eq_none_iff_forall_ne_some]
  intro l hl
  have hl' : t'.locate? path = some l := h.walk? hl
  rw [hnone] at hl'
  cases hl'

/-- Only directories were made. -/
theorem MadeParents.allOrNothing {f : Failure} (h : MadeParents t target (t₁, .error f)) :
    AllOrNothing t mishap target text (t₁, .error f) := by
  obtain ⟨⟨parent, reason, hparent, rfl⟩, hnone, hnone'⟩ := h.failed f rfl
  constructor
  case isTree => exact h.isTree
  case directories => exact fun l => h.grows.directory
  case made => exact fun l => h.directory_cases (.refl t₁)
  case others => exact fun l _ _ s => h.grows.file_iff
  case written => exact nofun
  case gone => exact nofun
  case kept => exact fun _ _ l hl => absurd (hnone.symm.trans hl) nofun
  case absent => exact fun _ _ => h.grows.locate?_eq_none
  case blamed => exact fun _ hf => ⟨parent, reason, (Except.error.inj hf).symm, .inr hparent⟩
  case left => exact fun _ _ l s hl => absurd (hnone'.symm.trans hl) nofun
  case complete => exact fun _ l l' hl => absurd (hnone.symm.trans hl) nofun

/-- Nothing but the temporary file was touched. -/
theorem MadeParents.allOrNothing_of_touched (h : MadeParents t target (t₁, .ok ()))
    (hext : Path.endsAsDirectory target = true ∨ Path.extension? target ≠ some "tmp")
    (hfail : t₁.replace mishap target text = (t₂, false)) (reason : String) :
    AllOrNothing t mishap target text (t₂, .error (.io target reason)) := by
  have hspec := (replace_spec t₁ mishap target text).2
  rw [hfail] at hspec
  obtain ⟨htouched, hleft⟩ := hspec rfl
  -- paths lead to the same places, since all directories are where they were
  have hsame := htouched.directories
  constructor
  case isTree => exact htouched.isTree h.isTree
  case directories => exact fun l hl => (hsame l).mpr (h.grows.directory hl)
  case made => exact fun l => h.directory_cases hsame
  case others =>
    intro l _ htemporary s
    rw [locate?_congr hsame] at htemporary
    rw [htouched.others l htemporary, h.grows.file_iff]
  case written => exact nofun
  case gone => exact nofun
  case kept =>
    intro _ _ l hl
    rw [locate?_congr hsame] at hl
    rw [htouched.shownAt h.isTree hext hl]
    exact (h.shownAt_or hl).imp_right fun hmade => hmade.congr hsame
  case absent =>
    intro _ _ hnone
    rw [locate?_congr hsame] at hnone
    exact h.grows.locate?_eq_none hnone
  case blamed => exact fun _ hf => ⟨target, reason, (Except.error.inj hf).symm, .inl rfl⟩
  case left =>
    intro _ _ l s hl hs
    rw [locate?_congr hsame] at hl
    exact ⟨hleft l s hl hs, (htouched.content l s hl hs).imp_right h.grows.file_iff.mp⟩
  case complete =>
    -- with no fault and no directory in the way the target would have been replaced
    intro hfault l l' hl hl' hdir hdir' hends
    rw [locate?_congr hsame] at hl hl'
    rw [Ne, hsame] at hdir hdir'
    have hok := replace_of_free text hfault hl' hl hdir' hdir hends
    rw [hfail] at hok
    cases hok

/-- The target was replaced. -/
theorem MadeParents.allOrNothing_of_replaced (h : MadeParents t target (t₁, .ok ()))
    (hext : Path.endsAsDirectory target = true ∨ Path.extension? target ≠ some "tmp")
    (hok : t₁.replace mishap target text = (t₂, true)) :
    AllOrNothing t mishap target text (t₂, .ok ()) := by
  have hspec := (replace_spec t₁ mishap target text).1
  rw [hok] at hspec
  have hreplaced := hspec rfl
  have hsame := hreplaced.sameDirectories
  obtain ⟨l₁, l₂, hl₁, hl₂, hdir₁, hdir₂, hat⟩ := hreplaced.place
  have hplain := hreplaced.file
  -- the extensions differ, so the temporary file and the target are two places
  have hne : l₂ ≠ l₁ := (h.isTree.ne_temporary (hext.resolve_left (by simp [hplain])) hl₂
    hl₁).resolve_left hdir₂
  rw [← locate?_congr hsame] at hl₁ hl₂
  constructor
  case isTree => exact hreplaced.isTree h.isTree
  case directories => exact fun l hl => (hsame l).mpr (h.grows.directory hl)
  case made => exact fun l => h.directory_cases hsame
  case others =>
    intro l htarget htemporary s
    have hne₂ : l ≠ l₂ := fun heq => htarget (heq ▸ hl₂)
    have hne₁ : l ≠ l₁ := fun heq => htemporary (heq ▸ hl₁)
    rw [hat, if_neg hne₂, if_neg hne₁, h.grows.file_iff]
  case written =>
    refine fun _ => ⟨l₂, hl₂, ?_⟩
    have hfile : t₂.at? l₂ = some (.file text) := by rw [hat, if_pos rfl]
    unfold FileTree.shownAt
    rw [hfile, hplain]
    rfl
  case gone =>
    refine fun _ => ⟨l₁, hl₁, ?_⟩
    rw [hat, if_neg (Ne.symm hne), if_pos rfl]
  case kept => exact nofun
  case absent => exact nofun
  case blamed => exact nofun
  case left => exact nofun
  case complete => exact fun _ _ _ _ _ _ _ _ => rfl

/-- **Writing is all or nothing.** A target whose path has another extension than temporary files
holds the text in the end, or it is what it was; the one exception is a directory that is made on the
way to a target by a path that leads through the target and back. -/
theorem allOrNothing_write (h : t.IsTree) (mishap : Mishap) (root path text : String)
    (hext : Path.extension? path ≠ some "tmp") :
    AllOrNothing t mishap (Path.join root path) text (t.write mishap root path text) := by
  have htarget : Path.endsAsDirectory (Path.join root path) = true
      ∨ Path.extension? (Path.join root path) ≠ some "tmp" :=
    (Path.extension?_join root path).imp_right fun heq => by rwa [heq]
  have hmade := madeParents_makeParents h mishap (Path.join root path)
  unfold write
  simp only
  split
  next t₁ f heq =>
    rw [heq] at hmade
    exact hmade.allOrNothing
  next t₁ heq =>
    rw [heq] at hmade
    split
    next t₂ hreplace => exact hmade.allOrNothing_of_replaced htarget hreplace
    next t₂ hreplace =>
      exact hmade.allOrNothing_of_touched htarget hreplace "the file cannot be written"

/-- The hypotheses are satisfiable, by a file whose temporary file cannot take its place. -/
theorem allOrNothing_write_unrenamed :
    empty.IsTree ∧ Path.extension? "a/B.java" ≠ some "tmp"
      ∧ AllOrNothing empty ⟨some .rename, false⟩ (Path.join "out" "a/B.java") "text"
        (empty.write ⟨some .rename, false⟩ "out" "a/B.java" "text") :=
  have hext : Path.extension? "a/B.java" ≠ some "tmp" := by decide
  ⟨isTree_empty, hext, allOrNothing_write isTree_empty _ "out" "a/B.java" "text" hext⟩

/-- Without the exception it fails: nothing goes wrong on its own, and a directory is where nothing
was. -/
theorem exists_write_not_kept :
    ∃ path target, target = Path.join "out" path ∧ Path.extension? path ≠ some "tmp"
      ∧ (empty.write .none "out" path "text").2
        = .error (.io target "the file cannot be written")
      ∧ empty.locate? target = none
      ∧ ∃ l, (empty.write .none "out" path "text").1.locate? target = some l
        ∧ empty.shownAt target l = none
        ∧ (empty.write .none "out" path "text").1.shownAt target l = some .directory :=
  ⟨"x/../x", "out/x/../x", by decide, by decide, by decide, by decide, ["out", "x"], by decide,
    by decide, by decide⟩

end TypedEntities.FileTree
