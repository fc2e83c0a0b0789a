import Mathlib
import TypedEntities.Proofs.Generation.Run
import TypedEntities.Proofs.Outcome

/-!
# Comparing pieces of runs

`Run.Alike` relates two pieces of runs that go the same way, step by step, and `Run.Gives` a piece
of a run to a computation without state. Either is shown for a whole piece from its steps.
-/

namespace TypedEntities

open TypedEntities.Outcome (Agree)

variable {σ σ' τ α β γ δ : Type}

namespace Run

/-- From related states two pieces of runs come to related states; both fail, or both end well with
related results. -/
def Alike (I : Progress σ τ → Progress σ' τ → Prop) (P : α → β → Prop) (x : Run σ τ α)
    (y : Run σ' τ β) : Prop :=
  ∀ p q, I p q → Agree P (x p).1 (y q).1 ∧ I (x p).2 (y q).2

/-- From a good state a piece of a run comes to a good state; its result agrees with the given
one. -/
def Gives (Q : Progress σ τ → Prop) (P : α → β → Prop) (x : Run σ τ α) (y : Except Failure β) :
    Prop :=
  ∀ p, Q p → Agree P (x p).1 y ∧ Q (x p).2

variable {I : Progress σ τ → Progress σ' τ → Prop} {P : α → β → Prop} {P' : γ → δ → Prop}

/-- Two results that belong together are alike on their own. -/
theorem Alike.pure {a : α} {b : β} (h : P a b) :
    Alike I P (pure a : Run σ τ α) (pure b : Run σ' τ β) := fun _ _ hI => ⟨.ok h, hI⟩

/-- What the results are said to be can be weakened. -/
theorem Alike.imp {P₂ : α → β → Prop} {x : Run σ τ α} {y : Run σ' τ β} (h : Alike I P x y)
    (himp : ∀ a b, P a b → P₂ a b) : Alike I P₂ x y := by
  intro p q hI
  obtain ⟨hresult, hstate⟩ := h p q hI
  exact ⟨hresult.imp fun a b _ _ => himp a b, hstate⟩

/-- Two runs are alike if their first parts are, and their second parts are for results that belong
together. -/
theorem Alike.bind {x : Run σ τ α} {y : Run σ' τ β} {f : α → Run σ τ γ} {g : β → Run σ' τ δ}
    (h : Alike I P x y) (hf : ∀ a b, P a b → Alike I P' (f a) (g b)) :
    Alike I P' (x >>= f) (y >>= g) := by
  intro p q hI
  obtain ⟨hresult, hstate⟩ := h p q hI
  rw [bind_apply, bind_apply]
  cases hp : x p with
  | mk result p' =>
    cases hq : y q with
    | mk result' q' =>
      rw [hp, hq] at hresult hstate
      cases hresult with
      | ok hab => exact hf _ _ hab p' q' hstate
      | error => exact ⟨.error, hstate⟩

/-- Loops over related entries are alike if their rounds are. -/
theorem Alike.forM {f : α → Run σ τ Unit} {g : β → Run σ' τ Unit} {l : List α} {l' : List β}
    (h : List.Forall₂ P l l') (hf : ∀ a b, P a b → Alike I (fun _ _ => True) (f a) (g b)) :
    Alike I (fun _ _ => True) (l.forM f) (l'.forM g) := by
  induction h with
  | nil => exact .pure trivial
  | cons hab _ ih => exact .bind (hf _ _ hab) fun _ _ _ => ih

/-- A run gives what is computed if both its parts do. -/
theorem Gives.bind {Q : Progress σ τ → Prop} {x : Run σ τ α} {y : Except Failure β}
    {f : α → Run σ τ γ} {g : β → Except Failure δ} (h : Gives Q P x y)
    (hf : ∀ a b, P a b → Gives Q P' (f a) (g b)) : Gives Q P' (x >>= f) (y >>= g) := by
  intro p hp
  obtain ⟨hresult, hstate⟩ := h p hp
  rw [bind_apply]
  cases hx : x p with
  | mk result p' =>
    rw [hx] at hresult hstate
    cases hresult with
    | ok hab => exact hf _ _ hab p' hstate
    | error => exact ⟨.error, hstate⟩

/-- A run that goes through a list gives what is computed for each entry. -/
theorem Gives.mapM {Q : Progress σ τ → Prop} {f : α → Run σ τ γ} {g : α → Except Failure δ}
    (hf : ∀ a, Gives Q P' (f a) (g a)) (l : List α) :
    Gives Q (List.Forall₂ P') (l.mapM f) (l.mapM g) := by
  induction l with
  | nil => exact fun _ hp => ⟨.ok .nil, hp⟩
  | cons a l ih =>
    rw [List.mapM_cons, List.mapM_cons]
    -- the good states carry over from each round to the next
    exact .bind (hf a) fun _ _ hc => .bind ih fun _ _ hcs => fun _ hp => ⟨.ok (.cons hc hcs), hp⟩

end Run

end TypedEntities
