import Mathlib.Order.Basic

/-!
# Loops with a budget

The body of a loop may fail. A loop whose body keeps an invariant and lowers a measure ends; the
invariant and the measure may depend on a value that is not part of the state.
-/

namespace Looping

variable {σ ι : Type} {more : σ → Bool} {body : σ → Option σ} {s s' t : σ} {m n : Nat}

/-- What a loop has come to. -/
inductive Result (σ : Type) where
  | done (s : σ)
  | failed
  | running

/-- At most the given number of rounds. -/
def loop (more : σ → Bool) (body : σ → Option σ) : Nat → σ → Result σ
  | 0, s => if more s then .running else .done s
  | n + 1, s =>
    if more s then
      match body s with
      | none => .failed
      | some s' => loop more body n s'
    else .done s

lemma loop_of_not_more (h : more s = false) (n : Nat) : loop more body n s = .done s := by
  cases n with
  | zero => rw [loop, h, if_neg Bool.false_ne_true]
  | succ n => rw [loop, h, if_neg Bool.false_ne_true]

lemma loop_succ (h : more s = true) (hbody : body s = some s') (n : Nat) :
    loop more body (n + 1) s = loop more body n s' := by
  rw [loop, if_pos h, hbody]

/-- More rounds do not change the end of a loop. -/
lemma loop_mono (h : loop more body n s = .done t) (hle : n ≤ m) : loop more body m s = .done t := by
  induction n generalizing s m with
  | zero =>
    cases hs : more s with
    | false =>
      rw [loop_of_not_more hs] at h
      rw [loop_of_not_more hs, h]
    | true =>
      rw [loop, if_pos hs] at h
      cases h
  | succ n ih =>
    obtain ⟨k, rfl⟩ : ∃ k, m = k + 1 := ⟨m - 1, by omega⟩
    cases hs : more s with
    | false =>
      rw [loop_of_not_more hs] at h
      rw [loop_of_not_more hs, h]
    | true =>
      rw [loop, if_pos hs] at h
      cases hbody : body s with
      | none =>
        rw [hbody] at h
        cases h
      | some s' =>
        rw [hbody] at h
        rw [loop_succ hs hbody]
        exact ih h (by omega)

/-- The loop ends in a state. -/
def Ends (more : σ → Bool) (body : σ → Option σ) (s t : σ) : Prop := ∃ n, loop more body n s = .done t

lemma Ends.stop (h : more s = false) : Ends more body s s := ⟨0, loop_of_not_more h 0⟩

lemma Ends.step (h : more s = true) (hbody : body s = some s') (hend : Ends more body s' t) :
    Ends more body s t := by
  obtain ⟨n, hn⟩ := hend
  exact ⟨n + 1, by rw [loop_succ h hbody, hn]⟩

/-- What a loop ends in does not depend on the number of rounds. -/
lemma Ends.unique {t' : σ} (h : Ends more body s t) (h' : loop more body n s = .done t') : t = t' := by
  obtain ⟨m, hm⟩ := h
  have heq := (loop_mono hm (Nat.le_max_left m n)).symm.trans (loop_mono h' (Nat.le_max_right m n))
  cases heq
  rfl

/-- The measure bounds the number of rounds. -/
lemma loop_ends {Inv : ι → σ → Prop} {measure : ι → σ → Nat}
    (hstep : ∀ o s, Inv o s → more s = true →
      ∃ s' o', body s = some s' ∧ Inv o' s' ∧ measure o' s' < measure o s)
    {o : ι} (hinv : Inv o s) (hn : measure o s ≤ n) :
    ∃ t o', loop more body n s = .done t ∧ Inv o' t ∧ more t = false := by
  induction n generalizing o s with
  | zero =>
    cases hs : more s with
    | false => exact ⟨s, o, loop_of_not_more hs 0, hinv, hs⟩
    | true =>
      obtain ⟨s', o', -, -, hlt⟩ := hstep o s hinv hs
      exact absurd hlt (by omega)
  | succ n ih =>
    cases hs : more s with
    | false => exact ⟨s, o, loop_of_not_more hs (n + 1), hinv, hs⟩
    | true =>
      obtain ⟨s', o', hbody, hinv', hlt⟩ := hstep o s hinv hs
      rw [loop_succ hs hbody]
      exact ih hinv' (by omega)

/-- The rule for an invariant and a measure of the state alone. -/
lemma loop_finishes {Inv : σ → Prop} {measure : σ → Nat}
    (hstep : ∀ s, Inv s → more s = true → ∃ s', body s = some s' ∧ Inv s' ∧ measure s' < measure s)
    (hinv : Inv s) (hn : measure s ≤ n) :
    ∃ t, loop more body n s = .done t ∧ Inv t ∧ more t = false := by
  have hstep' : ∀ (o : Unit) s, Inv s → more s = true →
      ∃ s', ∃ _ : Unit, body s = some s' ∧ Inv s' ∧ measure s' < measure s := by
    intro o s hinv hmore
    obtain ⟨s', h⟩ := hstep s hinv hmore
    exact ⟨s', o, h⟩
  obtain ⟨t, -, h⟩ := loop_ends hstep' (o := ()) hinv hn
  exact ⟨t, h⟩

end Looping
