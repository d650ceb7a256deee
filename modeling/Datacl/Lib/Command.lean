import Mathlib.Tactic

/-!
# Fallible commands on a state

A command reads and changes a state and either returns a value or fails. A failed command
keeps the changes it made before it failed, as code does that leaves a function by an early
return.
-/

/-- A command: a value, or `none` on failure, and the state it leaves in both cases. -/
def Cmd (σ α : Type) : Type := σ → Option α × σ

namespace Cmd

variable {σ τ α β ι : Type}

instance : Monad (Cmd σ) where
  pure a := fun s => (some a, s)
  bind c f := fun s =>
    match c s with
    | (some a, s') => f a s'
    | (none, s') => (none, s')

/-- Leave with an error. -/
def fail : Cmd σ α := fun s => (none, s)

/-- Go on with the value, if there is one. -/
def ofOption : Option α → Cmd σ α
  | some a => pure a
  | none => fail

/-- Go on only if `p` holds. -/
def require (p : Prop) [Decidable p] : Cmd σ Unit := fun s => (if p then some () else none, s)

/-- The present state. -/
def get : Cmd σ σ := fun s => (some s, s)

/-- Change the state. -/
def modify (f : σ → σ) : Cmd σ Unit := fun s => (some (), f s)

/-- Run a command only if `p` holds. -/
def when (p : Prop) [Decidable p] (c : Cmd σ Unit) : Cmd σ Unit := if p then c else pure ()

/-- Whether a command succeeded, for callers that look at the status later. -/
def status (c : Cmd σ α) : Cmd σ Bool := fun s => (some (c s).1.isSome, (c s).2)

/-- Run a command whose status nobody looks at. -/
def attempt (c : Cmd σ α) : Cmd σ Unit := fun s => (some (), (c s).2)

/-- Run a command on a component of the state. -/
def on (view : σ → τ) (put : τ → σ → σ) (c : Cmd τ α) : Cmd σ α :=
  fun s => ((c (view s)).1, put (c (view s)).2 s)

/-- Run the body for each element of a list, in order. -/
def forEach (f : ι → Cmd σ Unit) : List ι → Cmd σ Unit
  | [] => pure ()
  | x :: xs => do
    f x
    forEach f xs

/-- Run a list of commands, each of which has to succeed. -/
def run (step : ι → Cmd σ Unit) (s : σ) : List ι → Option σ
  | [] => some s
  | x :: xs =>
    match step x s with
    | (some _, s') => run step s' xs
    | (none, _) => none

/-! ### Executing -/

@[simp] lemma pure_apply (a : α) (s : σ) : (pure a : Cmd σ α) s = (some a, s) := rfl

@[simp] lemma fail_apply (s : σ) : (fail : Cmd σ α) s = (none, s) := rfl

@[simp] lemma get_apply (s : σ) : (get : Cmd σ σ) s = (some s, s) := rfl

@[simp] lemma modify_apply (f : σ → σ) (s : σ) : modify f s = (some (), f s) := rfl

@[simp] lemma status_apply (c : Cmd σ α) (s : σ) :
    status c s = (some (c s).1.isSome, (c s).2) := rfl

@[simp] lemma attempt_apply (c : Cmd σ α) (s : σ) : attempt c s = (some (), (c s).2) := rfl

@[simp] lemma when_pos {p : Prop} [Decidable p] (h : p) (c : Cmd σ Unit) : when p c = c := if_pos h

@[simp] lemma when_neg {p : Prop} [Decidable p] (h : ¬ p) (c : Cmd σ Unit) :
    when p c = pure () := if_neg h

@[simp] lemma on_apply (view : σ → τ) (put : τ → σ → σ) (c : Cmd τ α) (s : σ) :
    on view put c s = ((c (view s)).1, put (c (view s)).2 s) := rfl

lemma require_apply (p : Prop) [Decidable p] (s : σ) :
    (require p : Cmd σ Unit) s = (if p then some () else none, s) := rfl

@[simp] lemma require_pos {p : Prop} [Decidable p] (h : p) (s : σ) :
    (require p : Cmd σ Unit) s = (some (), s) := by
  rw [require_apply, if_pos h]

lemma bind_apply (c : Cmd σ α) (f : α → Cmd σ β) (s : σ) :
    (c >>= f) s = match c s with
      | (some a, s') => f a s'
      | (none, s') => (none, s') := rfl

lemma bind_of_eq {c : Cmd σ α} {f : α → Cmd σ β} {s s' : σ} {a : α} (h : c s = (some a, s')) :
    (c >>= f) s = f a s' := by
  rw [bind_apply, h]

lemma require_bind (p : Prop) [Decidable p] (f : Unit → Cmd σ β) (s : σ) :
    (require p >>= f) s = if p then f () s else (none, s) := by
  rw [bind_apply, require_apply]
  by_cases h : p
  · rw [if_pos h, if_pos h]
  · rw [if_neg h, if_neg h]

@[simp] lemma get_bind (f : σ → Cmd σ β) (s : σ) : (get >>= f) s = f s s := rfl

@[simp] lemma modify_bind (g : σ → σ) (f : Unit → Cmd σ β) (s : σ) :
    (modify g >>= f) s = f () (g s) := rfl

lemma ofOption_some_bind (a : α) (f : α → Cmd σ β) (s : σ) : (ofOption (some a) >>= f) s = f a s := rfl

@[simp] lemma attempt_bind (c : Cmd σ α) (f : Unit → Cmd σ β) (s : σ) :
    (attempt c >>= f) s = f () (c s).2 := rfl

@[simp] lemma status_bind (c : Cmd σ α) (f : Bool → Cmd σ β) (s : σ) :
    (status c >>= f) s = f (c s).1.isSome (c s).2 := rfl

/-! ### What a successful command did -/

lemma bind_eq_some {c : Cmd σ α} {f : α → Cmd σ β} {s s' : σ} {b : β} :
    (c >>= f) s = (some b, s') ↔ ∃ a s₁, c s = (some a, s₁) ∧ f a s₁ = (some b, s') := by
  rw [bind_apply]
  constructor
  · intro h
    match hc : c s with
    | (some a, s₁) =>
      rw [hc] at h
      exact ⟨a, s₁, rfl, h⟩
    | (none, s₁) =>
      rw [hc] at h
      cases h
  · rintro ⟨a, s₁, hc, hf⟩
    rw [hc]
    exact hf

lemma pure_eq_some {a b : α} {s s' : σ} :
    (pure a : Cmd σ α) s = (some b, s') ↔ b = a ∧ s' = s := by
  simp [eq_comm]

lemma modify_eq_some {f : σ → σ} {s s' : σ} {u : Unit} :
    modify f s = (some u, s') ↔ s' = f s := by
  simp [eq_comm]

lemma require_eq_some {p : Prop} [Decidable p] {s s' : σ} {u : Unit} :
    (require p : Cmd σ Unit) s = (some u, s') ↔ p ∧ s' = s := by
  rw [require_apply]
  by_cases h : p
  · simp [h, eq_comm]
  · simp [h]

lemma ofOption_bind_eq_some {o : Option α} {f : α → Cmd σ β} {s s' : σ} {b : β} :
    (ofOption o >>= f) s = (some b, s') ↔ ∃ a, o = some a ∧ f a s = (some b, s') := by
  cases o with
  | none => simp [ofOption, bind_apply]
  | some a => simp [ofOption, bind_apply]

lemma when_eq_some {p : Prop} [Decidable p] {c : Cmd σ Unit} {s s' : σ} {u : Unit} :
    when p c s = (some u, s') ↔ (p ∧ c s = (some (), s')) ∨ (¬ p ∧ s' = s) := by
  by_cases h : p
  · simp [h]
  · simp [h, eq_comm]

lemma require_bind_eq_some {p : Prop} [Decidable p] {f : Unit → Cmd σ β} {s s' : σ} {b : β} :
    (require p >>= f) s = (some b, s') ↔ p ∧ f () s = (some b, s') := by
  rw [require_bind]
  by_cases h : p
  · simp [h]
  · simp [h]

/-! ### What a failed command leaves -/

/-- If the command fails, the state it leaves satisfies `R`. -/
def OnFailure (R : σ → Prop) (c : Cmd σ α) (s : σ) : Prop := (c s).1 = none → R (c s).2

section

variable {R : σ → Prop} {s : σ}

lemma onFailure_of_eq_some {c : Cmd σ α} {a : α} {s' : σ} (h : c s = (some a, s')) :
    OnFailure R c s := by
  intro hfail
  rw [h] at hfail
  cases hfail

lemma onFailure_of_eq_none {c : Cmd σ α} {s' : σ} (h : c s = (none, s')) (hR : R s') :
    OnFailure R c s := by
  intro _
  rw [h]
  exact hR

lemma onFailure_bind {c : Cmd σ α} {f : α → Cmd σ β} (h : OnFailure R c s)
    (hf : ∀ a s', c s = (some a, s') → OnFailure R (f a) s') : OnFailure R (c >>= f) s := by
  unfold OnFailure
  rw [bind_apply]
  rcases hc : c s with ⟨_ | a, s'⟩
  · intro _
    have hR := h (by rw [hc])
    rw [hc] at hR
    exact hR
  · exact hf a s' hc

lemma onFailure_get_bind {f : σ → Cmd σ β} (h : OnFailure R (f s) s) : OnFailure R (get >>= f) s := h

lemma onFailure_require_bind {p : Prop} [Decidable p] {f : Unit → Cmd σ β} (hR : R s)
    (hf : p → OnFailure R (f ()) s) : OnFailure R (require p >>= f) s := by
  unfold OnFailure
  rw [require_bind]
  by_cases h : p
  · rw [if_pos h]
    exact hf h
  · rw [if_neg h]
    exact fun _ => hR

lemma onFailure_require {p : Prop} [Decidable p] (h : ¬ p → R s) :
    OnFailure R (require p : Cmd σ Unit) s := by
  unfold OnFailure
  rw [require_apply]
  by_cases hp : p
  · rw [if_pos hp]
    intro hfail
    cases hfail
  · exact fun _ => h hp

lemma onFailure_ofOption_bind {o : Option α} {f : α → Cmd σ β} (hR : o = none → R s)
    (hf : ∀ a, o = some a → OnFailure R (f a) s) : OnFailure R (ofOption o >>= f) s := by
  cases o with
  | none => exact fun _ => hR rfl
  | some a => exact hf a rfl

end

/-! ### What a command keeps, also when it fails -/

/-- The command keeps `I`, whether it succeeds or not. -/
def Keeps (I : σ → Prop) (c : Cmd σ α) : Prop := ∀ s, I s → I (c s).2

section

variable {I : σ → Prop}

lemma keeps_pure (a : α) : Keeps I (pure a : Cmd σ α) := fun _ h => h

lemma keeps_require (p : Prop) [Decidable p] : Keeps I (require p : Cmd σ Unit) := fun _ h => h

lemma keeps_ofOption (o : Option α) : Keeps I (ofOption o : Cmd σ α) := by
  cases o with
  | none => exact fun _ h => h
  | some a => exact keeps_pure a

lemma keeps_modify {f : σ → σ} (h : ∀ s, I s → I (f s)) : Keeps I (modify f) := h

lemma keeps_bind {c : Cmd σ α} {f : α → Cmd σ β} (h : Keeps I c)
    (hf : ∀ s a s', c s = (some a, s') → Keeps I (f a)) : Keeps I (c >>= f) := by
  intro s hs
  have hc := h s hs
  rw [bind_apply]
  rcases hrun : c s with ⟨_ | a, s'⟩
  · rw [hrun] at hc
    exact hc
  · rw [hrun] at hc
    exact hf s a s' hrun s' hc

/-- A command and the next one from a given state. -/
lemma bind_keeps {c : Cmd σ α} {f : α → Cmd σ β} {s : σ} (hfail : (c s).1 = none → I (c s).2)
    (hf : ∀ a s', c s = (some a, s') → I (f a s').2) : I ((c >>= f) s).2 := by
  rw [bind_apply]
  rcases hc : c s with ⟨_ | a, s'⟩
  · rw [hc] at hfail
    exact hfail rfl
  · exact hf a s' hc

lemma require_bind_keeps {p : Prop} [Decidable p] {f : Unit → Cmd σ β} {s : σ} (hs : I s)
    (hf : p → I (f () s).2) : I ((require p >>= f) s).2 := by
  rw [require_bind]
  split_ifs with h
  · exact hf h
  · exact hs

lemma ofOption_bind_keeps {o : Option α} {f : α → Cmd σ β} {s : σ} (hs : I s)
    (hf : ∀ a, o = some a → I (f a s).2) : I ((ofOption o >>= f) s).2 := by
  cases o with
  | none => exact hs
  | some a => exact hf a rfl

lemma keeps_get_bind {f : σ → Cmd σ β} (h : ∀ s, I s → Keeps I (f s)) : Keeps I (get >>= f) :=
  fun s hs => h s hs s hs

lemma keeps_attempt {c : Cmd σ α} (h : Keeps I c) : Keeps I (attempt c) := h

lemma keeps_status {c : Cmd σ α} (h : Keeps I c) : Keeps I (status c) := h

lemma keeps_require_bind {p : Prop} [Decidable p] {f : Unit → Cmd σ β} (hf : p → Keeps I (f ())) :
    Keeps I (require p >>= f) := by
  intro s hs
  rw [require_bind]
  by_cases h : p
  · rw [if_pos h]
    exact hf h s hs
  · rw [if_neg h]
    exact hs

lemma keeps_ofOption_bind {o : Option α} {f : α → Cmd σ β} (hf : ∀ a, o = some a → Keeps I (f a)) :
    Keeps I (ofOption o >>= f) := by
  cases o with
  | none => exact fun _ hs => hs
  | some a => exact hf a rfl

lemma keeps_when {p : Prop} [Decidable p] {c : Cmd σ Unit} (h : Keeps I c) : Keeps I (when p c) := by
  by_cases hp : p
  · rwa [when_pos hp]
  · rw [when_neg hp]
    exact keeps_pure ()

lemma keeps_forEach {f : ι → Cmd σ Unit} {xs : List ι} (h : ∀ x ∈ xs, Keeps I (f x)) :
    Keeps I (forEach f xs) := by
  induction xs with
  | nil => exact keeps_pure ()
  | cons x xs ih =>
    rw [List.forall_mem_cons] at h
    exact keeps_bind h.1 fun _ _ _ _ => ih h.2

/-- From a state that satisfies `I` the command comes to one that satisfies `J`, whether it succeeds or
not. -/
def Leads (I J : σ → Prop) (c : Cmd σ α) : Prop := ∀ s, I s → J (c s).2

section

variable {J : σ → Prop}

lemma Leads.bind {c : Cmd σ α} {f : α → Cmd σ β} (h : Leads I J c) (hf : ∀ a, Keeps J (f a)) :
    Leads I J (c >>= f) :=
  fun s hs => bind_keeps (fun _ => h s hs) fun a s' hrun => hf a s' (by
    have hc := h s hs
    rwa [hrun] at hc)

variable (hIJ : ∀ s, I s → J s)
include hIJ

lemma leads_bind {c : Cmd σ α} {f : α → Cmd σ β} (h : Keeps I c) (hf : ∀ a, Leads I J (f a)) :
    Leads I J (c >>= f) :=
  fun s hs => bind_keeps (fun _ => hIJ _ (h s hs)) fun a s' hrun => hf a s' (by
    have hc := h s hs
    rwa [hrun] at hc)

lemma leads_require_bind {p : Prop} [Decidable p] {f : Unit → Cmd σ β} (hf : p → Leads I J (f ())) :
    Leads I J (require p >>= f) := by
  intro s hs
  rw [require_bind]
  split_ifs with h
  · exact hf h s hs
  · exact hIJ s hs

lemma leads_ofOption_bind {o : Option α} {f : α → Cmd σ β} (hf : ∀ a, o = some a → Leads I J (f a)) :
    Leads I J (ofOption o >>= f) := by
  cases o with
  | none => exact hIJ
  | some a => exact hf a rfl

end

lemma leads_get_bind {J : σ → Prop} {f : σ → Cmd σ β} (h : ∀ s, I s → Leads I J (f s)) :
    Leads I J (get >>= f) :=
  fun s hs => h s hs s hs

/-- The state that the steps leave, whether they fail or not. -/
def after (step : ι → Cmd σ Unit) (s : σ) (xs : List ι) : σ :=
  xs.foldl (fun s x => (step x s).2) s

/-- What every step keeps holds after any steps. -/
lemma keeps_after {step : ι → Cmd σ Unit} (h : ∀ x, Keeps I (step x)) {s : σ} (hs : I s)
    (xs : List ι) : I (after step s xs) := by
  induction xs generalizing s with
  | nil => exact hs
  | cons x xs ih => exact ih (h x s hs)

end

/-! ### Loops -/

/-- What every iteration keeps, the loop keeps. -/
lemma forEach_keeps {I : σ → Prop} {f : ι → Cmd σ Unit} {xs : List ι} {s s' : σ}
    (hstep : ∀ x ∈ xs, ∀ s s', I s → f x s = (some (), s') → I s') (hs : I s)
    (h : forEach f xs s = (some (), s')) : I s' := by
  induction xs generalizing s with
  | nil =>
    obtain ⟨-, rfl⟩ := pure_eq_some.mp h
    exact hs
  | cons x xs ih =>
    obtain ⟨_, s₁, hx, hxs⟩ := bind_eq_some.mp h
    have h1 : I s₁ := hstep x List.mem_cons_self s s₁ hs hx
    exact ih (fun y hy => hstep y (List.mem_cons_of_mem x hy)) h1 hxs

/-- If every iteration succeeds from a state that satisfies `I` and restores `I`, so does the
loop. -/
lemma forEach_succeeds {I : σ → Prop} {f : ι → Cmd σ Unit} (xs : List ι) {s : σ}
    (hstep : ∀ x ∈ xs, ∀ s, I s → ∃ s', f x s = (some (), s') ∧ I s') (hs : I s) :
    ∃ s', forEach f xs s = (some (), s') ∧ I s' := by
  induction xs generalizing s with
  | nil => exact ⟨s, rfl, hs⟩
  | cons x xs ih =>
    obtain ⟨s₁, hx, h1⟩ := hstep x List.mem_cons_self s hs
    obtain ⟨s₂, hxs, h2⟩ := ih (fun y hy => hstep y (List.mem_cons_of_mem x hy)) h1
    exact ⟨s₂, bind_eq_some.mpr ⟨(), s₁, hx, hxs⟩, h2⟩

/-- Iterations that do nothing. -/
lemma forEach_append_of_pass {f : ι → Cmd σ Unit} {xs : List ι} {s : σ}
    (h : ∀ x ∈ xs, f x s = (some (), s)) (ys : List ι) :
    forEach f (xs ++ ys) s = forEach f ys s := by
  induction xs with
  | nil => rfl
  | cons x xs ih =>
    rw [List.cons_append, forEach, bind_of_eq (h x List.mem_cons_self)]
    exact ih fun y hy => h y (List.mem_cons_of_mem x hy)

/-! ### Runs -/

lemma run_append (step : ι → Cmd σ Unit) (s : σ) (xs ys : List ι) :
    run step s (xs ++ ys) = (run step s xs).bind fun s' => run step s' ys := by
  induction xs generalizing s with
  | nil => rfl
  | cons x xs ih =>
    rw [List.cons_append, run, run]
    match step x s with
    | (some _, s₁) => exact ih s₁
    | (none, _) => rfl

lemma run_singleton_eq_some {step : ι → Cmd σ Unit} {s s' : σ} {x : ι} :
    run step s [x] = some s' ↔ step x s = (some (), s') := by
  rw [run]
  match step x s with
  | (some _, s₁) => simp [run]
  | (none, s₁) => simp

/-- One successful step that meets the condition `ok`. -/
def Step (step : ι → Cmd σ Unit) (ok : σ → ι → Prop) (s s' : σ) : Prop :=
  ∃ x, ok s x ∧ step x s = (some (), s')

/-- The states reached by successful steps that meet the condition `ok`. -/
def Reach (step : ι → Cmd σ Unit) (ok : σ → ι → Prop) : σ → σ → Prop :=
  Relation.ReflTransGen (Step step ok)

lemma reach_of_run {step : ι → Cmd σ Unit} {ok : σ → ι → Prop} {s s' : σ} {xs : List ι}
    (hok : ∀ x ∈ xs, ∀ s, ok s x) (h : run step s xs = some s') : Reach step ok s s' := by
  induction xs generalizing s with
  | nil =>
    obtain rfl := Option.some.inj h
    exact .refl
  | cons x xs ih =>
    rw [run] at h
    match hx : step x s with
    | (some _, s₁) =>
      rw [hx] at h
      have hx' : step x s = (some (), s₁) := hx
      exact .head ⟨x, hok x List.mem_cons_self s, hx'⟩
        (ih (fun y hy => hok y (List.mem_cons_of_mem x hy)) h)
    | (none, s₁) =>
      rw [hx] at h
      cases h

lemma Reach.invariant {step : ι → Cmd σ Unit} {ok : σ → ι → Prop} {I : σ → Prop} {s s' : σ}
    (hstep : ∀ s x s', I s → ok s x → step x s = (some (), s') → I s') (hs : I s)
    (h : Reach step ok s s') : I s' := by
  induction h with
  | refl => exact hs
  | tail _ hlast ih =>
    obtain ⟨x, hok, hrun⟩ := hlast
    exact hstep _ x _ ih hok hrun

/-- The states reached by steps that meet the condition `ok` and may fail. -/
def Attempts (step : ι → Cmd σ Unit) (ok : σ → ι → Prop) : σ → σ → Prop :=
  Relation.ReflTransGen fun s s' => ∃ x, ok s x ∧ (step x s).2 = s'

lemma Attempts.invariant {step : ι → Cmd σ Unit} {ok : σ → ι → Prop} {I : σ → Prop} {s s' : σ}
    (hstep : ∀ s x, I s → ok s x → I (step x s).2) (hs : I s) (h : Attempts step ok s s') : I s' := by
  induction h with
  | refl => exact hs
  | tail _ hlast ih =>
    obtain ⟨x, hok, rfl⟩ := hlast
    exact hstep _ x ih hok

lemma run_cons_eq_some {step : ι → Cmd σ Unit} {s s' : σ} {x : ι} {xs : List ι} :
    run step s (x :: xs) = some s' ↔ ∃ s₁, step x s = (some (), s₁) ∧ run step s₁ xs = some s' := by
  rw [← List.singleton_append, run_append]
  simp only [Option.bind_eq_some_iff, run_singleton_eq_some]

/-- Where a step restores `P` if and only if it meets the condition `ok`, every state of a
successful run satisfies `P` if and only if every step of it meets the condition. -/
lemma run_all_iff {step : ι → Cmd σ Unit} (J P : σ → Prop) (ok : σ → ι → Prop)
    (hstep : ∀ s x s', J s → P s → step x s = (some (), s') → J s' ∧ (P s' ↔ ok s x))
    {s s' : σ} {xs : List ι} (hJ : J s) (hP : P s) (hrun : run step s xs = some s') :
    (∀ pre s₁, pre <+: xs → run step s pre = some s₁ → P s₁) ↔
      ∀ pre x s₁, pre ++ [x] <+: xs → run step s pre = some s₁ → ok s₁ x := by
  induction xs generalizing s with
  | nil =>
    refine iff_of_true (fun pre s₁ hpre h => ?_) fun pre x s₁ hpre => ?_
    · obtain rfl := List.prefix_nil.mp hpre
      exact Option.some.inj h ▸ hP
    · exact absurd (List.prefix_nil.mp hpre) (by simp)
  | cons x xs ih =>
    obtain ⟨s₂, hx, hxs⟩ := run_cons_eq_some.mp hrun
    obtain ⟨hJ₂, hP₂⟩ := hstep s x s₂ hJ hP hx
    have hrest : ∀ {pre s₁}, run step s (x :: pre) = some s₁ ↔ run step s₂ pre = some s₁ := by
      intro pre s₁
      simp [run_cons_eq_some, hx]
    constructor
    · intro hall pre y s₁ hpre h
      have hs₂ : P s₂ := hall [x] s₂ (by simp) (hrest.mpr rfl)
      have hih := (ih hJ₂ hs₂ hxs).mp fun pre s₁ hpre h =>
        hall (x :: pre) s₁ (List.cons_prefix_cons.mpr ⟨rfl, hpre⟩) (hrest.mpr h)
      cases pre with
      | nil =>
        obtain rfl := (List.cons_prefix_cons.mp hpre).1
        exact Option.some.inj h ▸ hP₂.mp hs₂
      | cons z pre =>
        obtain ⟨rfl, htail⟩ := List.cons_prefix_cons.mp hpre
        exact hih pre y s₁ htail (hrest.mp h)
    · intro hall pre s₁ hpre h
      have hs₂ : P s₂ := hP₂.mpr (hall [] x s (by simp) rfl)
      have hih := (ih hJ₂ hs₂ hxs).mpr fun pre y s₁ hpre h =>
        hall (x :: pre) y s₁ (List.cons_prefix_cons.mpr ⟨rfl, hpre⟩) (hrest.mpr h)
      cases pre with
      | nil => exact Option.some.inj h ▸ hP
      | cons z pre =>
        obtain ⟨rfl, htail⟩ := List.cons_prefix_cons.mp hpre
        exact hih pre s₁ htail (hrest.mp h)

end Cmd
