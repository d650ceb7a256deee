import Mathlib.Data.List.Basic

/-!
# Interleaved steps

Several parties take steps on one state. What a party sees of it follows from the party's own steps
if no step of another one changes it.
-/

namespace Interleaving

variable {σ τ ι κ : Type*} {step : σ → ι → σ} {ok : σ → ι → Prop} {s : σ} {t : τ} {xs ys : List ι}

/-- Each step meets the condition in the state in which it is taken. -/
def Allowed (step : σ → ι → σ) (ok : σ → ι → Prop) : σ → List ι → Prop
  | _, [] => True
  | s, x :: xs => ok s x ∧ Allowed step ok (step s x) xs

instance decidableAllowed [∀ s x, Decidable (ok s x)] :
    (s : σ) → (xs : List ι) → Decidable (Allowed step ok s xs)
  | _, [] => inferInstanceAs (Decidable True)
  | s, x :: xs => @instDecidableAnd _ _ _ (decidableAllowed (step s x) xs)

lemma Allowed.of_append (h : Allowed step ok s (xs ++ ys)) :
    Allowed step ok s xs ∧ Allowed step ok (xs.foldl step s) ys := by
  induction xs generalizing s with
  | nil => exact ⟨trivial, h⟩
  | cons x xs ih =>
    obtain ⟨hxs, hys⟩ := ih h.2
    exact ⟨⟨h.1, hxs⟩, hys⟩

/-- A condition on each step on its own. -/
lemma Allowed.and_forall {p : ι → Prop} (h : Allowed step ok s xs) (hp : ∀ x ∈ xs, p x) :
    Allowed step (fun s x => ok s x ∧ p x) s xs := by
  induction xs generalizing s with
  | nil => trivial
  | cons x xs ih =>
    rw [List.forall_mem_cons] at hp
    exact ⟨⟨h.1, hp.1⟩, ih h.2 hp.2⟩

/-- What every step keeps. -/
lemma Allowed.keeps {I : σ → Prop} (h : Allowed step ok s xs)
    (hstep : ∀ s x, I s → ok s x → I (step s x)) (hs : I s) : I (xs.foldl step s) := by
  induction xs generalizing s with
  | nil => exact hs
  | cons x xs ih => exact ih h.2 (hstep s x hs h.1)

/-- The party whose steps are `part` sees `t` in the state `s` if `R s t`. Its own steps act on what it
sees, and the steps of others do not change it. -/
structure Follows (step : σ → ι → σ) (ok : σ → ι → Prop) (part : ι → Option κ) (act : τ → κ → τ)
    (R : σ → τ → Prop) : Prop where
  own : ∀ s t x y, R s t → ok s x → part x = some y → R (step s x) (act t y)
  other : ∀ s t x, R s t → ok s x → part x = none → R (step s x) t

/-- In the end the party sees what it sees after its own steps alone. -/
lemma Follows.run {part : ι → Option κ} {act : τ → κ → τ} {R : σ → τ → Prop}
    (h : Follows step ok part act R) (hR : R s t) (hok : Allowed step ok s xs) :
    R (xs.foldl step s) ((xs.filterMap part).foldl act t) := by
  induction xs generalizing s t with
  | nil => exact hR
  | cons x xs ih =>
    cases hx : part x with
    | none =>
      rw [List.filterMap_cons_none hx]
      exact ih (h.other s t x hR hok.1 hx) hok.2
    | some y =>
      rw [List.filterMap_cons_some hx]
      exact ih (h.own s t x y hR hok.1 hx) hok.2

end Interleaving
