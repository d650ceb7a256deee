import Mathlib.Tactic

/-!
# Held values

A state holds values that were computed from it at some time. Whoever asks for a value gets the one
that is held, and only else a new one. The held values have to be the ones that would be computed
now.
-/

/-- What would be computed from a state now, and what is held. -/
structure Cached (σ κ β : Type*) where
  value : σ → κ → Option β
  held : σ → κ → Option β

namespace Cached

variable {σ κ β : Type*} {c : Cached σ κ β} {s s' : σ}

/-- Every held value would be computed now. -/
def Fresh (c : Cached σ κ β) (s : σ) : Prop := ∀ k v, c.held s k = some v → c.value s k = some v

/-- Each value that is held afterwards is new, or was held and is the value still. -/
lemma Fresh.step (h : c.Fresh s)
    (hstep : ∀ k v, c.held s' k = some v →
      c.value s' k = some v ∨ (c.held s k = some v ∧ c.value s' k = c.value s k)) :
    c.Fresh s' := by
  intro k v hk
  rcases hstep k v hk with hv | ⟨hold, hsame⟩
  · exact hv
  · rw [hsame]
    exact h k v hold

/-- Nothing is held anew and no value changes. -/
lemma Fresh.frame (h : c.Fresh s) (hheld : ∀ k, c.held s' k = c.held s k)
    (hvalue : ∀ k, c.value s' k = c.value s k) : c.Fresh s' :=
  h.step fun k _ hk => .inr ⟨hheld k ▸ hk, hvalue k⟩

end Cached
