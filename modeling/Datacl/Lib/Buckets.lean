import Mathlib.Data.List.Induction
import Mathlib.Tactic

/-!
# Buckets one behind the other

An array that is cut into segments, and the elements of a list distributed over the segments by a key.
-/

namespace Buckets

variable {α : Type}

/-- The segments `f 0`, ..., `f (n - 1)` one behind the other. -/
def joined (f : Nat → List α) (n : Nat) : List α := (List.range n).flatMap f

@[simp] lemma joined_zero (f : Nat → List α) : joined f 0 = [] := rfl

/-- Where segment `b` begins. -/
def start (f : Nat → List α) (b : Nat) : Nat := (joined f b).length

lemma joined_succ (f : Nat → List α) (n : Nat) : joined f (n + 1) = joined f n ++ f n := by
  rw [joined, List.range_succ, List.flatMap_append, List.flatMap_singleton, joined]

lemma joined_congr {f g : Nat → List α} {n : Nat} (h : ∀ b < n, f b = g b) :
    joined f n = joined g n := by
  apply List.flatMap_congr
  intro b hb
  exact h b (List.mem_range.mp hb)

lemma start_succ (f : Nat → List α) (b : Nat) : start f (b + 1) = start f b + (f b).length := by
  rw [start, joined_succ, List.length_append, start]

lemma start_congr {f g : Nat → List α} {n : Nat} (h : ∀ b < n, (f b).length = (g b).length) :
    start f n = start g n := by
  induction n with
  | zero => rfl
  | succ n ih =>
    rw [start_succ, start_succ, h n (Nat.lt_succ_self n), ih fun b hb => h b (hb.trans n.lt_succ_self)]

lemma mem_joined {f : Nat → List α} {n : Nat} {x : α} : x ∈ joined f n ↔ ∃ b < n, x ∈ f b := by
  simp [joined]

lemma start_add_le (f : Nat → List α) {b n : Nat} (hb : b < n) :
    start f b + (f b).length ≤ start f n := by
  induction n with
  | zero => omega
  | succ n ih =>
    rw [start_succ]
    rcases Nat.lt_succ_iff_lt_or_eq.mp hb with hlt | rfl
    · exact (ih hlt).trans (Nat.le_add_right _ _)
    · exact le_rfl

/-- A segment in front of it and one behind it. -/
lemma joined_split (f : Nat → List α) {b n : Nat} (hb : b < n) :
    ∃ rest, ∀ s, joined (Function.update f b s) n = joined f b ++ s ++ rest := by
  induction n with
  | zero => omega
  | succ n ih =>
    rcases Nat.lt_succ_iff_lt_or_eq.mp hb with hlt | rfl
    · obtain ⟨rest, hrest⟩ := ih hlt
      refine ⟨rest ++ f n, fun s => ?_⟩
      rw [joined_succ, hrest, Function.update_of_ne hlt.ne', List.append_assoc _ rest]
    · refine ⟨[], fun s => ?_⟩
      rw [joined_succ, Function.update_self, List.append_nil]
      congr 1
      exact joined_congr fun c hc => Function.update_of_ne hc.ne _ _

/-- To put an element into a segment. -/
lemma joined_set (f : Nat → List α) {b n k : Nat} (hb : b < n) (hk : k < (f b).length) (x : α) :
    (joined f n).set (start f b + k) x = joined (Function.update f b ((f b).set k x)) n := by
  obtain ⟨rest, hrest⟩ := joined_split f hb
  have hself := hrest (f b)
  rw [Function.update_eq_self] at hself
  rw [hself, hrest, start, List.append_assoc, List.append_assoc,
    List.set_append_right _ _ (Nat.le_add_right _ _), Nat.add_sub_cancel_left,
    List.set_append_left _ _ hk]

/-- To put another segment in the place of one. -/
lemma joined_update (f : Nat → List α) {b n : Nat} (hb : b < n) (s : List α) :
    (joined f n).take (start f b) ++ s ++ (joined f n).drop (start f b + (f b).length) =
      joined (Function.update f b s) n := by
  obtain ⟨rest, hrest⟩ := joined_split f hb
  have hself := hrest (f b)
  rw [Function.update_eq_self] at hself
  have hend : (joined f b).length + (f b).length = (joined f b ++ f b).length :=
    List.length_append.symm
  rw [hself, hrest, start, hend, List.drop_left, List.append_assoc (joined f b) (f b),
    List.take_left]

/-- The segment itself. -/
lemma joined_slice (f : Nat → List α) {b n : Nat} (hb : b < n) :
    ((joined f n).drop (start f b)).take (f b).length = f b := by
  obtain ⟨rest, hrest⟩ := joined_split f hb
  have hself := hrest (f b)
  rw [Function.update_eq_self] at hself
  rw [hself, start, List.append_assoc, List.drop_left, List.take_left]

/-- Any list of the right length falls into segments. -/
lemma exists_joined (f : Nat → List α) {n : Nat} {l : List α} (hl : l.length = start f n) :
    ∃ g : Nat → List α, l = joined g n ∧ ∀ b < n, (g b).length = (f b).length := by
  induction n generalizing l with
  | zero =>
    refine ⟨f, List.eq_nil_of_length_eq_zero hl, fun b hb => absurd hb (Nat.not_lt_zero b)⟩
  | succ n ih =>
    rw [start_succ] at hl
    obtain ⟨g, hg, hlen⟩ := ih (l := l.take (start f n)) (by rw [List.length_take]; omega)
    refine ⟨Function.update g n (l.drop (start f n)), ?_, ?_⟩
    · rw [joined_succ, Function.update_self, joined_congr fun b hb => Function.update_of_ne hb.ne _ _,
        ← hg, List.take_append_drop]
    · intro b hb
      rcases Nat.lt_succ_iff_lt_or_eq.mp hb with hlt | rfl
      · rw [Function.update_of_ne hlt.ne, hlen b hlt]
      · rw [Function.update_self, List.length_drop]
        omega

lemma joined_perm {f g : Nat → List α} {n : Nat} (h : ∀ b < n, (f b).Perm (g b)) :
    (joined f n).Perm (joined g n) := by
  induction n with
  | zero => exact .refl _
  | succ n ih =>
    rw [joined_succ, joined_succ]
    exact (ih fun b hb => h b (hb.trans n.lt_succ_self)).append (h n n.lt_succ_self)

/-- In order within the segments and from one to the next. -/
lemma pairwise_joined {R : α → α → Prop} {f : Nat → List α} {n : Nat} :
    (joined f n).Pairwise R ↔
      (∀ b < n, (f b).Pairwise R) ∧ ∀ b c, b < c → c < n → ∀ x ∈ f b, ∀ y ∈ f c, R x y := by
  rw [joined, List.pairwise_flatMap]
  simp only [List.mem_range]
  refine and_congr_right fun _ => ?_
  rw [List.pairwise_iff_getElem]
  simp only [List.length_range, List.getElem_range]
  constructor
  · intro h b c hbc hc
    exact h b c (hbc.trans hc) hc hbc
  · intro h b c _ hc hbc
    exact h b c hbc hc

section Key

variable (key : α → Nat)

/-- The elements with the key `b`. -/
def havingKey (xs : List α) (b : Nat) : List α := xs.filter (key · = b)

lemma mem_havingKey {xs : List α} {b : Nat} {x : α} : x ∈ havingKey key xs b ↔ x ∈ xs ∧ key x = b := by
  simp [havingKey]

@[simp] lemma havingKey_nil (b : Nat) : havingKey key [] b = [] := rfl

lemma havingKey_append_singleton (xs : List α) (x : α) :
    havingKey key (xs ++ [x]) =
      Function.update (havingKey key xs) (key x) (havingKey key xs (key x) ++ [x]) := by
  funext b
  rw [havingKey, List.filter_append]
  by_cases hb : key x = b
  · subst hb
    rw [Function.update_self, havingKey]
    simp
  · rw [Function.update_of_ne (Ne.symm hb), havingKey]
    simp [hb]

lemma length_havingKey_joined (f : Nat → List α) (n b : Nat) :
    (havingKey key (joined f n) b).length =
      ((List.range n).map fun t => (havingKey key (f t) b).length).sum := by
  rw [havingKey, joined, List.filter_flatMap, List.length_flatMap]
  rfl

/-- Every element is in one segment. -/
lemma joined_havingKey_perm {xs : List α} {n : Nat} (h : ∀ x ∈ xs, key x < n) :
    (joined (havingKey key xs) n).Perm xs := by
  induction xs using List.reverseRecOn with
  | nil =>
    have hnil : joined (havingKey key []) n = [] := List.flatMap_eq_nil_iff.mpr fun _ _ => rfl
    rw [hnil]
  | append_singleton xs x ih =>
    have hx : key x < n := h x (by simp)
    obtain ⟨rest, hrest⟩ := joined_split (havingKey key xs) hx
    have hself := hrest (havingKey key xs (key x))
    rw [Function.update_eq_self] at hself
    have ih := ih fun y hy => h y (List.mem_append_left _ hy)
    rw [hself] at ih
    rw [havingKey_append_singleton, hrest]
    calc (joined (havingKey key xs) (key x) ++ (havingKey key xs (key x) ++ [x]) ++ rest).Perm
          (joined (havingKey key xs) (key x) ++ havingKey key xs (key x) ++ (rest ++ [x])) := by
            simp only [List.append_assoc]
            exact (List.perm_append_comm.append_left _).append_left _
      _ = joined (havingKey key xs) (key x) ++ havingKey key xs (key x) ++ rest ++ [x] :=
            (List.append_assoc _ _ _).symm
      List.Perm _ (xs ++ [x]) := ih.append_right _

end Key

end Buckets
