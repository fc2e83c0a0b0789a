import Mathlib
import TypedEntities.Proofs.Listing

/-!
# Steps that can fail

What is known of a computation in `Except` that ends well: each of its steps did. `Agree` compares
two computations: both fail, or both end well with related results.
-/

namespace TypedEntities.Outcome

variable {ε α β γ δ : Type}

/-! ## One computation -/

/-- Two steps end well if the first does and the second does with its result. -/
theorem bind_eq_ok {x : Except ε α} {f : α → Except ε β} {b : β} :
    (x >>= f) = .ok b ↔ ∃ a, x = .ok a ∧ f a = .ok b := by
  cases x with
  | error e => simp [bind, Except.bind]
  | ok a => simp [bind, Except.bind]

theorem map_eq_ok {x : Except ε α} {f : α → β} {b : β} :
    x.map f = .ok b ↔ ∃ a, x = .ok a ∧ f a = b := by
  cases x with
  | error e => simp [Except.map]
  | ok a => simp [Except.map]

/-- A failure stays the same when a result would be changed. -/
theorem map_eq_error {x : Except ε α} {f : α → β} {e : ε} :
    x.map f = .error e ↔ x = .error e := by
  cases x with
  | error e' => simp [Except.map]
  | ok a => simp [Except.map]

/-- What can be seen to end well has a result. -/
theorem exists_of_isOk {x : Except ε α} (h : x.isOk = true) : ∃ a, x = .ok a := by
  cases x with
  | error e => cases h
  | ok a => exact ⟨a, rfl⟩

/-- What can be seen to end well has a result, and leaves a state. -/
theorem exists_of_fst_isOk {x : Except ε α × β} (h : x.1.isOk = true) :
    ∃ a b, x = (.ok a, b) := by
  obtain ⟨a, ha⟩ := exists_of_isOk h
  exact ⟨a, x.2, Prod.ext ha rfl⟩

/-- What can be seen of a result is seen of one. -/
theorem exists_of_toOption_map {x : Except ε α} {f : α → β} {b : β}
    (h : (x.map f).toOption = some b) : ∃ a, x = .ok a ∧ f a = b := by
  cases x with
  | error e => cases h
  | ok a => exact ⟨a, rfl, Option.some.inj h⟩

/-- A step for every entry of a list ends well if each does. -/
theorem mapM_eq_ok {f : α → Except ε β} {l : List α} {r : List β} :
    l.mapM f = .ok r ↔ List.Forall₂ (fun a b => f a = .ok b) l r := by
  induction l generalizing r with
  | nil =>
    rw [List.forall₂_nil_left_iff]
    constructor
    · intro h
      cases h
      rfl
    · intro heq
      subst heq
      rfl
  | cons a l ih =>
    rw [List.mapM_cons, List.forall₂_cons_left_iff, bind_eq_ok]
    constructor
    · intro hx
      obtain ⟨b, hb, h⟩ := hx
      obtain ⟨bs, hbs, h⟩ := bind_eq_ok.mp h
      cases h
      exact ⟨b, bs, hb, ih.mp hbs, rfl⟩
    · intro hx
      obtain ⟨b, bs, hb, hbs, rfl⟩ := hx
      exact ⟨b, hb, bind_eq_ok.mpr ⟨bs, ih.mpr hbs, rfl⟩⟩

/-- What comes of a step for every entry of a list comes of one of the entries. -/
theorem exists_of_mem_mapM {f : α → Except ε β} {l : List α} {r : List β} (h : l.mapM f = .ok r)
    {b : β} (hb : b ∈ r) : ∃ a ∈ l, f a = .ok b :=
  exists_left_of_mem (mapM_eq_ok.mp h) hb

/-- Where each step that goes well goes well in another way, all of them do. -/
theorem exists_mapM_of_mapM {f : α → Except ε β} {f' : α → Except ε γ} {R : β → γ → Prop}
    {l : List α} {bs : List β} (hf : ∀ a ∈ l, ∀ b, f a = .ok b → ∃ c, f' a = .ok c ∧ R b c)
    (h : l.mapM f = .ok bs) : ∃ cs, l.mapM f' = .ok cs ∧ List.Forall₂ R bs cs := by
  have hall := mapM_eq_ok.mp h
  clear h
  induction hall with
  | nil => exact ⟨[], rfl, .nil⟩
  | cons ha _ ih =>
    obtain ⟨c, hc, hR⟩ := hf _ (List.mem_cons_self ..) _ ha
    obtain ⟨cs, hcs, hRs⟩ := ih fun a ha => hf a (List.mem_cons_of_mem _ ha)
    exact ⟨c :: cs, mapM_eq_ok.mpr (.cons hc (mapM_eq_ok.mp hcs)), .cons hR hRs⟩

/-- Steps that have gone well leave it to the next one to fail. -/
theorem mapM_eq_error {f : α → Except ε β} {before after : List α} {a : α} {e : ε}
    (hbefore : ∀ b ∈ before, ∃ c, f b = .ok c) (ha : f a = .error e) :
    (before ++ a :: after).mapM f = .error e := by
  induction before with
  | nil =>
    rw [List.nil_append, List.mapM_cons, ha]
    rfl
  | cons b before ih =>
    obtain ⟨c, hc⟩ := hbefore b (List.mem_cons_self ..)
    rw [List.cons_append, List.mapM_cons, hc, ih fun b hb => hbefore b (List.mem_cons_of_mem _ hb)]
    rfl

/-- A step for every entry of a list fails as the first entry does whose step fails. -/
theorem mapM_eq_error_iff {f : α → Except ε β} {l : List α} {e : ε} :
    l.mapM f = .error e ↔ ∃ before a after, l = before ++ a :: after
      ∧ (∀ b ∈ before, ∃ c, f b = .ok c) ∧ f a = .error e := by
  constructor
  · intro h
    induction l with
    | nil => cases h
    | cons a l ih =>
      rw [List.mapM_cons] at h
      cases ha : f a with
      | error e' =>
        rw [ha] at h
        cases h
        exact ⟨[], a, l, rfl, nofun, ha⟩
      | ok b =>
        have hrest : l.mapM f = .error e := by
          cases hl : l.mapM f with
          | error e' =>
            rw [ha, hl] at h
            cases h
            rfl
          | ok bs =>
            rw [ha, hl] at h
            cases h
        -- the first step succeeds, so it goes before those that the induction lists
        obtain ⟨before, a', after, rfl, hbefore, ha'⟩ := ih hrest
        refine ⟨a :: before, a', after, rfl, fun x hx => ?_, ha'⟩
        rcases List.mem_cons.mp hx with rfl | hx
        · exact ⟨b, ha⟩
        · exact hbefore x hx
  · intro h
    obtain ⟨before, a, after, rfl, hbefore, ha⟩ := h
    exact mapM_eq_error hbefore ha

/-! ## Two computations -/

/-- Both fail, or both end well with related results. -/
inductive Agree (P : α → β → Prop) : Except ε α → Except ε β → Prop
  | ok {a : α} {b : β} (h : P a b) : Agree P (.ok a) (.ok b)
  | error {e e' : ε} : Agree P (.error e) (.error e')

namespace Agree

variable {P : α → β → Prop} {Q : γ → δ → Prop} {x : Except ε α} {y : Except ε β}

theorem imp {P' : α → β → Prop} (h : Agree P x y)
    (himp : ∀ a b, x = .ok a → y = .ok b → P a b → P' a b) : Agree P' x y := by
  cases h with
  | ok h => exact .ok (himp _ _ rfl rfl h)
  | error => exact .error

theorem refl (x : Except ε α) : Agree (· = ·) x x := by
  cases x with
  | ok a => exact .ok rfl
  | error e => exact .error

theorem symm (h : Agree P x y) : Agree (fun b a => P a b) y x := by
  cases h with
  | ok h => exact .ok h
  | error => exact .error

theorem trans {R : β → γ → Prop} {z : Except ε γ} (h : Agree P x y) (h' : Agree R y z) :
    Agree (fun a c => ∃ b, P a b ∧ R b c) x z := by
  cases h with
  | ok h =>
    cases h' with
    | ok h' => exact .ok ⟨_, h, h'⟩
  | error =>
    cases h' with
    | error => exact .error

/-- What two computations have in common with a third. -/
theorem both {R : γ → β → Prop} {z : Except ε γ} (h : Agree P x y) (h' : Agree R z y) :
    Agree (fun a b => P a b ∧ ∃ c, z = .ok c ∧ R c b) x y := by
  cases h with
  | ok h =>
    cases h' with
    | ok h' => exact .ok ⟨h, _, rfl, h'⟩
  | error => exact .error

/-- Two computations agree if their first parts do, and their second parts for results that belong
together. -/
theorem bind {f : α → Except ε γ} {g : β → Except ε δ} (h : Agree P x y)
    (hf : ∀ a b, P a b → Agree Q (f a) (g b)) : Agree Q (x >>= f) (y >>= g) := by
  cases h with
  | ok h => exact hf _ _ h
  | error => exact .error

/-- Steps for the same entries agree if they agree on each entry. -/
theorem mapM {f : α → Except ε γ} {g : α → Except ε δ} (l : List α)
    (hf : ∀ a ∈ l, Agree Q (f a) (g a)) : Agree (List.Forall₂ Q) (l.mapM f) (l.mapM g) := by
  induction l with
  | nil => exact .ok .nil
  | cons a l ih =>
    have hrest := ih fun b hb => hf b (List.mem_cons_of_mem _ hb)
    rw [List.mapM_cons, List.mapM_cons]
    exact (hf a (List.mem_cons_self ..)).bind fun _ _ hc =>
      hrest.bind fun _ _ hcs => .ok (.cons hc hcs)

/-- A step for each entry of a list ends well in every order, with the results in that order. -/
theorem exists_mapM_of_perm {f : α → Except ε β} {l l' : List α} (h : l.Perm l') {r : List β}
    (hr : l.mapM f = .ok r) : ∃ r', l'.mapM f = .ok r' ∧ r.Perm r' := by
  obtain ⟨r', hr', hperm⟩ := List.perm_comp_forall₂ h.symm (mapM_eq_ok.mp hr)
  exact ⟨r', mapM_eq_ok.mpr hr', hperm.symm⟩

/-- Steps for the entries of a list in another order agree up to the order of the results. -/
theorem mapM_of_perm {f : α → Except ε β} {l l' : List α} (h : l.Perm l') :
    Agree List.Perm (l.mapM f) (l'.mapM f) := by
  cases hr : l.mapM f with
  | ok r =>
    obtain ⟨r', hr', hperm⟩ := exists_mapM_of_perm h hr
    rw [hr']
    exact .ok hperm
  | error e =>
    cases hr' : l'.mapM f with
    | error e' => exact .error
    | ok r' =>
      -- what succeeds in one order succeeds in the other
      obtain ⟨r, hok, -⟩ := exists_mapM_of_perm h.symm hr'
      rw [hr] at hok
      cases hok

end Agree

end TypedEntities.Outcome
