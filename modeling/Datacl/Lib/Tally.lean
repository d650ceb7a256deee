import Mathlib.Algebra.BigOperators.Group.Finset.Basic
import Mathlib.Algebra.Order.BigOperators.Group.List
import Mathlib.Algebra.Order.Ring.Int

/-!
# Sums by key

The values of a list of entries are added up by key, in an array of totals.
-/

namespace Tally

variable {α : Type} [AddCommMonoid α]

/-- The sum of the values with the key `j`. -/
def total (entries : List (Int × α)) (j : Int) : α :=
  (entries.map fun e => if e.1 = j then e.2 else 0).sum

@[simp] lemma total_nil (j : Int) : total ([] : List (Int × α)) j = 0 := rfl

lemma total_cons (e : Int × α) (entries : List (Int × α)) (j : Int) :
    total (e :: entries) j = (if e.1 = j then e.2 else 0) + total entries j := by
  rw [total, List.map_cons, List.sum_cons, total]

lemma total_append (a b : List (Int × α)) (j : Int) :
    total (a ++ b) j = total a j + total b j := by
  rw [total, List.map_append, List.sum_append, total, total]

lemma total_flatMap {ι : Type} (f : ι → List (Int × α)) (l : List ι) (j : Int) :
    total (l.flatMap f) j = (l.map fun i => total (f i) j).sum := by
  induction l with
  | nil => rfl
  | cons i l ih => rw [List.flatMap_cons, total_append, ih, List.map_cons, List.sum_cons]

/-- The totals add up to the sum of all values. -/
lemma sum_total {n : Nat} {entries : List (Int × α)} (h : ∀ e ∈ entries, 0 ≤ e.1 ∧ e.1 < n) :
    ∑ j ∈ Finset.range n, total entries j = (entries.map Prod.snd).sum := by
  induction entries with
  | nil => simp
  | cons e entries ih =>
    obtain ⟨h0, hn⟩ := h e List.mem_cons_self
    have hkey : ∑ j ∈ Finset.range n, (if e.1 = j then e.2 else 0) = e.2 := by
      rw [Finset.sum_eq_single e.1.toNat]
      · rw [if_pos (Int.toNat_of_nonneg h0).symm]
      · intro j _ hj
        rw [if_neg]
        rintro heq
        rw [heq] at hj
        exact hj (Int.toNat_natCast j).symm
      · intro hmem
        rw [Finset.mem_range] at hmem
        omega
    simp only [total_cons, Finset.sum_add_distrib]
    rw [hkey, ih fun e' he' => h e' (List.mem_cons_of_mem e he'), List.map_cons, List.sum_cons]

/-- Add the totals to an array. -/
def addTotals (cnt : List α) (entries : List (Int × α)) : List α :=
  cnt.mapIdx fun j c => c + total entries j

@[simp] lemma length_addTotals (cnt : List α) (entries : List (Int × α)) :
    (addTotals cnt entries).length = cnt.length := List.length_mapIdx

lemma getElem?_addTotals (cnt : List α) (entries : List (Int × α)) (j : Nat) :
    (addTotals cnt entries)[j]? = cnt[j]?.map (· + total entries j) := List.getElem?_mapIdx

lemma addTotals_nil (cnt : List α) : addTotals cnt ([] : List (Int × α)) = cnt := by
  apply List.ext_getElem?
  intro j
  rw [getElem?_addTotals]
  cases cnt[j]? with
  | none => rfl
  | some c => rw [total_nil, Option.map_some, add_zero]

lemma addTotals_append (cnt : List α) (a b : List (Int × α)) :
    addTotals cnt (a ++ b) = addTotals (addTotals cnt a) b := by
  apply List.ext_getElem?
  intro j
  rw [getElem?_addTotals, getElem?_addTotals, getElem?_addTotals]
  cases cnt[j]? with
  | none => rfl
  | some c => rw [Option.map_some, Option.map_some, Option.map_some, total_append, add_assoc]

/-- One entry changes one total. -/
lemma addTotals_singleton (cnt : List α) {idx : Int} (h : 0 ≤ idx) (v : α) :
    addTotals cnt [(idx, v)] = cnt.modify idx.toNat (· + v) := by
  apply List.ext_getElem?
  intro j
  rw [getElem?_addTotals, List.getElem?_modify, total_cons, total_nil, add_zero]
  by_cases hj : idx.toNat = j
  · rw [if_pos (by rw [← hj]; exact (Int.toNat_of_nonneg h).symm)]
    simp [hj]
  · rw [if_neg (by rintro rfl; exact hj (Int.toNat_natCast j))]
    simp [hj]

/-- The array of the totals. -/
lemma addTotals_replicate_zero (n : Nat) (entries : List (Int × α)) :
    addTotals (List.replicate n 0) entries = (List.range n).map fun j : Nat => total entries j := by
  apply List.ext_getElem?
  intro j
  rw [getElem?_addTotals, List.getElem?_replicate, List.getElem?_map]
  by_cases hj : j < n
  · rw [if_pos hj, List.getElem?_range hj, Option.map_some, Option.map_some, zero_add]
  · rw [if_neg hj, List.getElem?_eq_none (by simpa using hj), Option.map_none, Option.map_none]

/-! ### Integers -/

/-- No entry has the key. -/
lemma total_eq_zero {entries : List (Int × Int)} {j : Int} (h : ∀ e ∈ entries, e.1 ≠ j) :
    total entries j = 0 := by
  apply List.sum_eq_zero
  intro v hv
  obtain ⟨e, he, rfl⟩ := List.mem_map.mp hv
  exact if_neg (h e he)

lemma total_nonneg {entries : List (Int × Int)} (h : ∀ e ∈ entries, 0 ≤ e.2) (j : Int) :
    0 ≤ total entries j := by
  apply List.sum_nonneg
  intro v hv
  obtain ⟨e, he, rfl⟩ := List.mem_map.mp hv
  split_ifs
  · exact h e he
  · exact le_rfl

/-- Two entries with the same key are like one. -/
lemma total_merge (k a b : Int) (entries : List (Int × Int)) (j : Int) :
    total ((k, a + b) :: entries) j = total ((k, a) :: (k, b) :: entries) j := by
  rw [total_cons, total_cons, total_cons]
  split_ifs <;> omega

/-- The entries have the same value. -/
lemma total_le {entries : List (Int × Int)} {v : Int} (hv : 0 ≤ v) (h : ∀ e ∈ entries, e.2 = v)
    (j : Int) : 0 ≤ total entries j ∧ total entries j ≤ v * entries.length := by
  induction entries with
  | nil => simp
  | cons e entries ih =>
    have ih := ih fun e' he' => h e' (List.mem_cons_of_mem e he')
    rw [total_cons, h e List.mem_cons_self, List.length_cons, Nat.cast_succ, mul_add, mul_one]
    split_ifs <;> omega

lemma total_lt {entries : List (Int × Int)} {v : Int} (hv : 0 < v) (h : ∀ e ∈ entries, e.2 = v)
    {j : Int} (hne : ∃ e ∈ entries, e.1 ≠ j) : total entries j < v * entries.length := by
  induction entries with
  | nil =>
    obtain ⟨e, he, -⟩ := hne
    cases he
  | cons e entries ih =>
    have htail := fun e' he' => h e' (List.mem_cons_of_mem e he')
    have hle := (total_le hv.le htail j).2
    rw [total_cons, h e List.mem_cons_self, List.length_cons, Nat.cast_succ, mul_add, mul_one]
    by_cases hj : e.1 = j
    · obtain ⟨e', he', hne'⟩ := hne
      rcases List.mem_cons.mp he' with rfl | he'
      · exact absurd hj hne'
      · have ih := ih htail ⟨e', he', hne'⟩
        rw [if_pos hj]
        omega
    · rw [if_neg hj]
      omega

lemma total_pos {entries : List (Int × Int)} {v : Int} (hv : 0 < v) (h : ∀ e ∈ entries, e.2 = v)
    {j : Int} (hmem : ∃ e ∈ entries, e.1 = j) : 0 < total entries j := by
  obtain ⟨e, he, rfl⟩ := hmem
  obtain ⟨a, b, rfl⟩ := List.append_of_mem he
  rw [total_append, total_cons, if_pos rfl, h e he]
  have ha := (total_le hv.le (fun e' he' => h e' (List.mem_append_left _ he')) e.1).1
  have hb := (total_le hv.le (fun e' he' => h e' (List.mem_append_right _ (List.mem_cons_of_mem _ he')))
    e.1).1
  omega

/-- All entries have the key and the value. -/
lemma total_const {entries : List (Int × Int)} {j v : Int} (h : ∀ e ∈ entries, e = (j, v)) :
    total entries j = v * entries.length := by
  induction entries with
  | nil => simp
  | cons e entries ih =>
    rw [total_cons, ih fun e' he' => h e' (List.mem_cons_of_mem e he'), h e List.mem_cons_self,
      if_pos rfl, List.length_cons, Nat.cast_succ, mul_add, mul_one, add_comm]

end Tally
