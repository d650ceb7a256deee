import Datacl.Order.SetOps

/-!
# How often a value occurs in an intersection and in a difference

`intersection_I4` takes the smaller number of copies of each value. `a_minus_b_I4` advances both
columns over equal values, so that it subtracts the numbers of copies.
-/

namespace Datacl

/-- A value below the first one does not occur in an ascending column. -/
lemma count_eq_zero_of_lt {x y : Int} {ys : List Int} (hys : (y :: ys).Pairwise (· ≤ ·))
    (hlt : x < y) : (y :: ys).count x = 0 := by
  refine List.count_eq_zero.mpr fun hmem => ?_
  rcases List.mem_cons.mp hmem with rfl | hmem
  · exact lt_irrefl x hlt
  · have hle : y ≤ x := List.rel_of_pairwise_cons hys hmem
    omega

/-- The first value of one column is missing in the other one if it is smaller. -/
lemma count_cons_of_lt {x y : Int} {ys : List Int} (hys : (y :: ys).Pairwise (· ≤ ·))
    (hlt : x < y) (xs : List Int) (v : Int) :
    (y :: ys).count v = 0 ∨ (x :: xs).count v = xs.count v := by
  by_cases hv : x = v
  · exact .inl (hv ▸ count_eq_zero_of_lt hys hlt)
  · exact .inr (List.count_cons_of_ne hv)

lemma count_intersection {xs ys : List Int} (hxs : xs.Pairwise (· ≤ ·)) (hys : ys.Pairwise (· ≤ ·))
    (v : Int) : (intersection xs ys).count v = min (xs.count v) (ys.count v) := by
  fun_induction intersection xs ys with
  | case1 => simp
  | case2 => simp
  | case3 xs y ys ih =>
    have hrec := ih hxs.of_cons hys.of_cons
    simp only [List.count_cons, hrec]
    omega
  | case4 x xs y ys _ hlt ih =>
    rw [ih hxs.of_cons hys]
    rcases count_cons_of_lt hys hlt xs v with hzero | hsame
    · rw [hzero, Nat.min_zero, Nat.min_zero]
    · rw [hsame]
  | case5 x xs y ys hne hle ih =>
    have hlt : y < x := by omega
    rw [ih hxs hys.of_cons]
    rcases count_cons_of_lt hxs hlt ys v with hzero | hsame
    · rw [hzero, Nat.zero_min, Nat.zero_min]
    · rw [hsame]

lemma count_aMinusB {xs ys : List Int} (hxs : xs.Pairwise (· ≤ ·)) (hys : ys.Pairwise (· ≤ ·))
    (v : Int) : (aMinusB xs ys).count v = xs.count v - ys.count v := by
  fun_induction aMinusB xs ys with
  | case1 => simp
  | case2 => simp
  | case3 x xs y ys hlt ih =>
    have hrec := ih hxs.of_cons hys
    by_cases hv : x = v
    · rw [← hv] at hrec ⊢
      rw [List.count_cons_self, List.count_cons_self, hrec, count_eq_zero_of_lt hys hlt, Nat.sub_zero,
        Nat.sub_zero]
    · rw [List.count_cons_of_ne hv, List.count_cons_of_ne hv, hrec]
  | case4 xs y ys _ ih =>
    rw [ih hxs.of_cons hys.of_cons, List.count_cons, List.count_cons, Nat.add_sub_add_right]
  | case5 x xs y ys hle hne ih =>
    have hlt : y < x := by omega
    rw [ih hxs hys.of_cons]
    rcases count_cons_of_lt hxs hlt ys v with hzero | hsame
    · rw [hzero, Nat.zero_sub, Nat.zero_sub]
    · rw [hsame]

lemma length_intersection (xs ys : List Int) :
    (intersection xs ys).length ≤ min xs.length ys.length := by
  fun_induction intersection xs ys with
  | case1 => simp
  | case2 => simp
  | case3 xs y ys ih =>
    simp only [List.length_cons]
    omega
  | case4 x xs y ys _ _ ih =>
    simp only [List.length_cons] at ih ⊢
    omega
  | case5 x xs y ys _ _ ih =>
    simp only [List.length_cons] at ih ⊢
    omega

/-- The intersection and the difference of two columns as sets of values, where the intersection
keeps the copies that both columns have. -/
structure SetOpsRight (xs ys : List Int) : Prop where
  intersection_sorted : (intersection xs ys).Pairwise (· ≤ ·)
  intersection_count : ∀ v, (intersection xs ys).count v = min (xs.count v) (ys.count v)
  intersection_length : (intersection xs ys).length ≤ min xs.length ys.length
  aMinusB_sorted : (aMinusB xs ys).Pairwise (· ≤ ·)
  aMinusB_notMem : ∀ v ∈ ys, v ∉ aMinusB xs ys
  aMinusB_count : ∀ v ∉ ys, (aMinusB xs ys).count v = xs.count v

/-- The difference keeps a value of the second column if the first one has more copies of it. -/
theorem setOpsRight_iff {xs ys : List Int} (hxs : xs.Pairwise (· ≤ ·)) (hys : ys.Pairwise (· ≤ ·)) :
    SetOpsRight xs ys ↔ ∀ v ∈ ys, xs.count v ≤ ys.count v := by
  constructor
  · intro h v hv
    have hzero : (aMinusB xs ys).count v = 0 := List.count_eq_zero.mpr (h.aMinusB_notMem v hv)
    rw [count_aMinusB hxs hys] at hzero
    omega
  · intro h
    refine ⟨hxs.sublist (intersection_sublist xs ys), count_intersection hxs hys,
      length_intersection xs ys, hxs.sublist (aMinusB_sublist xs ys), fun v hv => ?_, fun v hv => ?_⟩
    · rw [← List.count_eq_zero, count_aMinusB hxs hys]
      have hle := h v hv
      omega
    · rw [count_aMinusB hxs hys, List.count_eq_zero.mpr hv, Nat.sub_zero]

theorem setOpsRight_repeated : SetOpsRight [1, 1, 2] [1, 1, 3] :=
  (setOpsRight_iff (by decide) (by decide)).mpr (by decide)

/-- One copy of a value takes away one copy only. -/
theorem not_setOpsRight_single : ¬ SetOpsRight [1, 1] [1] := by
  intro h
  exact h.aMinusB_notMem 1 (by decide) (by simp [aMinusB])

end Datacl
