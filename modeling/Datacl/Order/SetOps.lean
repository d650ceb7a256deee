import Mathlib.Tactic

/-!
# Set operations on sorted columns

The loops of `union_I4`, `intersection_I4`, `a_minus_b_I4` and of their 64-bit versions.
-/

namespace Datacl

/-- What `union_I4` compares: the bits of the value, less those of the mask. -/
def effVal (w : Nat) (mask : BitVec w) (x : Int) : BitVec w :=
  if mask ≠ 0 then BitVec.ofInt w x &&& ~~~mask else BitVec.ofInt w x

/-- What `union_I4` writes for two equal values. -/
def unionVal (w : Nat) (mask : BitVec w) (x y : Int) : Int :=
  if mask = 0 then x
  else
    let cnt1 := effVal w mask x &&& mask
    let cnt2 := effVal w mask y &&& mask
    let cnt := cnt1 + cnt2
    (effVal w mask x ||| cnt).toInt

/-- `union_I4` and `union_I8`, which differ in the number `w` of bits. The values are compared as
unsigned integers. -/
def unionCols (w : Nat) (mask : BitVec w) : List Int → List Int → List Int
  | [], ys => ys
  | x :: xs, [] => x :: xs
  | x :: xs, y :: ys =>
    if effVal w mask x < effVal w mask y then x :: unionCols w mask xs (y :: ys)
    else if effVal w mask y < effVal w mask x then y :: unionCols w mask (x :: xs) ys
    else unionVal w mask x y :: unionCols w mask xs ys
  termination_by xs ys => xs.length + ys.length

/-- `intersection_I4` and `intersection_I8`. -/
def intersection : List Int → List Int → List Int
  | [], _ => []
  | _ :: _, [] => []
  | x :: xs, y :: ys =>
    if x = y then x :: intersection xs ys
    else if x < y then intersection xs (y :: ys)
    else intersection (x :: xs) ys
  termination_by xs ys => xs.length + ys.length

/-- `a_minus_b_I4` and `a_minus_b_I8`. -/
def aMinusB : List Int → List Int → List Int
  | [], _ => []
  | x :: xs, [] => x :: xs
  | x :: xs, y :: ys =>
    if x < y then x :: aMinusB xs (y :: ys)
    else if x = y then aMinusB xs ys
    else aMinusB (x :: xs) ys
  termination_by xs ys => xs.length + ys.length

lemma intersection_sublist (xs ys : List Int) : (intersection xs ys).Sublist xs := by
  fun_induction intersection xs ys with
  | case1 => exact List.Sublist.refl _
  | case2 => exact List.nil_sublist _
  | case3 xs y ys ih => exact ih.cons_cons y
  | case4 x xs y ys _ _ ih => exact ih.cons x
  | case5 x xs y ys _ _ ih => exact ih

lemma aMinusB_sublist (xs ys : List Int) : (aMinusB xs ys).Sublist xs := by
  fun_induction aMinusB xs ys with
  | case1 => exact List.Sublist.refl _
  | case2 => exact List.Sublist.refl _
  | case3 x xs y ys _ ih => exact ih.cons_cons x
  | case4 xs y ys _ ih => exact ih.cons y
  | case5 x xs y ys _ _ ih => exact ih

/-! ### The union -/

/-- The value is one of a signed integer of `w` bits. -/
def InBits (w : Nat) (x : Int) : Prop := -2 ^ (w - 1) ≤ x ∧ x < 2 ^ (w - 1)

instance (w : Nat) (x : Int) : Decidable (InBits w x) := inferInstanceAs (Decidable (_ ∧ _))

/-- The column that has fewer copies of the greatest negative value of the two has no
non-negative value. -/
def NegativesEndTogether (xs ys : List Int) : Prop :=
  ∀ m < 0, (∀ z ∈ xs, z < 0 → z ≤ m) → (∀ z ∈ ys, z < 0 → z ≤ m) →
    (xs.count m < ys.count m → ∀ x ∈ xs, x < 0) ∧ (ys.count m < xs.count m → ∀ y ∈ ys, y < 0)

lemma NegativesEndTogether.symm {xs ys : List Int} (h : NegativesEndTogether xs ys) :
    NegativesEndTogether ys xs := fun m hm hys hxs => (h m hm hxs hys).symm

lemma two_pow_eq {w : Nat} (hw : 0 < w) : (2 : Int) ^ w = 2 * 2 ^ (w - 1) := by
  obtain ⟨k, rfl⟩ : ∃ k, w = k + 1 := ⟨w - 1, by omega⟩
  rw [pow_succ, mul_comm]
  rfl

/-- The unsigned value of a signed integer. -/
lemma toNat_effVal {w : Nat} (hw : 0 < w) {x : Int} (hx : InBits w x) :
    ((effVal w 0 x).toNat : Int) = if x < 0 then x + 2 ^ w else x := by
  have hpow := two_pow_eq hw
  have hnonneg : 0 ≤ x % 2 ^ w := Int.emod_nonneg x (by positivity)
  unfold InBits at hx
  simp only [effVal, ne_eq, not_true_eq_false, if_false, BitVec.toNat_ofInt]
  push_cast
  rw [Int.toNat_of_nonneg hnonneg]
  split_ifs with h0
  · rw [← Int.add_emod_right, Int.emod_eq_of_lt (by omega) (by omega)]
  · rw [Int.emod_eq_of_lt (by omega) (by omega)]

/-- For values of one sign the unsigned order is the signed one. -/
lemma effVal_lt_iff {w : Nat} (hw : 0 < w) {x y : Int} (hx : InBits w x) (hy : InBits w y)
    (hsign : x < 0 ↔ y < 0) : effVal w 0 x < effVal w 0 y ↔ x < y := by
  have h1 := toNat_effVal hw hx
  have h2 := toNat_effVal hw hy
  rw [BitVec.lt_def]
  by_cases h0 : x < 0
  · rw [if_pos h0] at h1
    rw [if_pos (hsign.mp h0)] at h2
    omega
  · rw [if_neg h0] at h1
    rw [if_neg fun h => h0 (hsign.mpr h)] at h2
    omega

/-- Negative values are the large ones. -/
lemma effVal_lt_of_sign {w : Nat} (hw : 0 < w) {x y : Int} (hx : InBits w x) (hy : InBits w y)
    (hx0 : 0 ≤ x) (hy0 : y < 0) : effVal w 0 x < effVal w 0 y := by
  have hpow := two_pow_eq hw
  have h1 := toNat_effVal hw hx
  have h2 := toNat_effVal hw hy
  rw [if_neg (by omega)] at h1
  rw [if_pos hy0] at h2
  unfold InBits at hx hy
  rw [BitVec.lt_def]
  omega

lemma effVal_inj {w : Nat} (hw : 0 < w) {x y : Int} (hx : InBits w x) (hy : InBits w y)
    (hxy : ¬ effVal w 0 x < effVal w 0 y) (hyx : ¬ effVal w 0 y < effVal w 0 x) : x = y := by
  have hsign : x < 0 ↔ y < 0 := by
    constructor
    · intro hx0
      by_contra hy0
      exact hyx (effVal_lt_of_sign hw hy hx (not_lt.mp hy0) hx0)
    · intro hy0
      by_contra hx0
      exact hxy (effVal_lt_of_sign hw hx hy (not_lt.mp hx0) hy0)
  rw [effVal_lt_iff hw hx hy hsign] at hxy
  rw [effVal_lt_iff hw hy hx hsign.symm] at hyx
  omega

/-- The heads of the two columns have the same sign. -/
lemma NegativesEndTogether.sign {x y : Int} {xs ys : List Int}
    (h : NegativesEndTogether (x :: xs) (y :: ys)) (hys : (y :: ys).Pairwise (· ≤ ·))
    (hx : x < 0) : y < 0 := by
  have hne : ((x :: xs).toFinset.filter (· < 0)).Nonempty := ⟨x, by simp [hx]⟩
  obtain ⟨m, hm, hmax⟩ := Finset.exists_max_image _ id hne
  simp only [Finset.mem_filter, List.mem_toFinset, id] at hm hmax
  by_contra hy
  have hnonneg : ∀ z ∈ y :: ys, 0 ≤ z := by
    intro z hz
    rcases List.mem_cons.mp hz with rfl | hz
    · omega
    · have := List.rel_of_pairwise_cons hys hz
      omega
  have hcount : (y :: ys).count m < (x :: xs).count m := by
    have h0 : (y :: ys).count m = 0 := List.count_eq_zero.mpr fun hmem => by
      have := hnonneg m hmem
      omega
    rw [h0]
    exact List.count_pos_iff.mpr hm.1
  have hbound : ∀ z ∈ y :: ys, z < 0 → z ≤ m := fun z hz h0 => absurd (hnonneg z hz) (by omega)
  exact hy ((h m hm.2 (fun z hz h0 => hmax z ⟨hz, h0⟩) hbound).2 hcount y List.mem_cons_self)

lemma NegativesEndTogether.tail_left {x y : Int} {xs ys : List Int}
    (h : NegativesEndTogether (x :: xs) (y :: ys)) (hsign : x < 0 → y < 0) (hlt : x < y) :
    NegativesEndTogether xs (y :: ys) := by
  intro m hm hxs hys
  have hxm : x ≠ m := by
    rintro rfl
    have := hys y List.mem_cons_self (hsign hm)
    omega
  have hbound : ∀ z ∈ x :: xs, z < 0 → z ≤ m := by
    intro z hz h0
    rcases List.mem_cons.mp hz with rfl | hz
    · have := hys y List.mem_cons_self (hsign h0)
      omega
    · exact hxs z hz h0
  obtain ⟨h1, h2⟩ := h m hm hbound hys
  rw [List.count_cons_of_ne hxm] at h1 h2
  exact ⟨fun hc z hz => h1 hc z (List.mem_cons_of_mem x hz), h2⟩

lemma NegativesEndTogether.tail_both {x : Int} {xs ys : List Int}
    (h : NegativesEndTogether (x :: xs) (x :: ys)) (hxs : (x :: xs).Pairwise (· ≤ ·))
    (hys : (x :: ys).Pairwise (· ≤ ·)) : NegativesEndTogether xs ys := by
  intro m hm hbx hby
  by_cases hx : x < 0 → x ≤ m
  · have hcons : ∀ {zs : List Int}, (∀ z ∈ zs, z < 0 → z ≤ m) → ∀ z ∈ x :: zs, z < 0 → z ≤ m := by
      intro zs hzs z hz h0
      rcases List.mem_cons.mp hz with rfl | hz
      · exact hx h0
      · exact hzs z hz h0
    obtain ⟨h1, h2⟩ := h m hm (hcons hbx) (hcons hby)
    simp only [List.count_cons, add_lt_add_iff_right] at h1 h2
    exact ⟨fun hc z hz => h1 hc z (List.mem_cons_of_mem x hz),
      fun hc z hz => h2 hc z (List.mem_cons_of_mem x hz)⟩
  · -- the columns have no value as small as `m` left
    have hzero : ∀ {zs : List Int}, (x :: zs).Pairwise (· ≤ ·) → zs.count m = 0 := by
      intro zs hzs
      refine List.count_eq_zero.mpr fun hmem => ?_
      have := List.rel_of_pairwise_cons hzs hmem
      omega
    rw [hzero hxs, hzero hys]
    exact ⟨fun hc => absurd hc (lt_irrefl 0), fun hc => absurd hc (lt_irrefl 0)⟩

lemma mem_unionCols {w : Nat} {xs ys : List Int} {z : Int} (h : z ∈ unionCols w 0 xs ys) :
    z ∈ xs ∨ z ∈ ys := by
  fun_induction unionCols w 0 xs ys with
  | case1 ys => exact .inr h
  | case2 x xs => exact .inl h
  | case3 x xs y ys _ ih =>
    rcases List.mem_cons.mp h with rfl | h
    · simp
    · rcases ih h with h | h
      · simp [h]
      · exact .inr h
  | case4 x xs y ys _ _ ih =>
    rcases List.mem_cons.mp h with rfl | h
    · simp
    · rcases ih h with h | h
      · exact .inl h
      · simp [h]
  | case5 x xs y ys _ _ ih =>
    rcases List.mem_cons.mp h with rfl | h
    · simp
    · rcases ih h with h | h
      · simp [h]
      · simp [h]

lemma inBits_unionVal {w : Nat} (mask : BitVec w) {x y : Int} (hx : InBits w x) :
    InBits w (unionVal w mask x y) := by
  unfold unionVal
  split
  · exact hx
  · exact ⟨BitVec.le_toInt _, BitVec.toInt_lt⟩

lemma inBits_unionCols {w : Nat} (mask : BitVec w) {xs ys : List Int}
    (hxs : ∀ x ∈ xs, InBits w x) (hys : ∀ y ∈ ys, InBits w y) :
    ∀ z ∈ unionCols w mask xs ys, InBits w z := by
  fun_induction unionCols w mask xs ys with
  | case1 ys => exact hys
  | case2 x xs => exact hxs
  | case3 x xs y ys _ ih =>
    rw [List.forall_mem_cons] at hxs ⊢
    exact ⟨hxs.1, ih hxs.2 hys⟩
  | case4 x xs y ys _ _ ih =>
    rw [List.forall_mem_cons] at hys ⊢
    exact ⟨hys.1, ih hxs hys.2⟩
  | case5 x xs y ys _ _ ih =>
    rw [List.forall_mem_cons] at hxs hys ⊢
    exact ⟨inBits_unionVal mask hxs.1, ih hxs.2 hys.2⟩

/-- A relation that holds of ascending values, and within both columns, holds within their union if
the negative values end together. -/
lemma rel_unionCols {w : Nat} (hw : 0 < w) {R : Int → Int → Prop} (hR : ∀ a b, a < b → R a b)
    {xs ys : List Int} (hxs : xs.Pairwise (· ≤ ·)) (hys : ys.Pairwise (· ≤ ·)) (hrx : xs.Pairwise R)
    (hry : ys.Pairwise R) (hbx : ∀ x ∈ xs, InBits w x) (hby : ∀ y ∈ ys, InBits w y)
    (h : NegativesEndTogether xs ys) : (unionCols w 0 xs ys).Pairwise R := by
  fun_induction unionCols w 0 xs ys with
  | case1 ys => exact hry
  | case2 x xs => exact hrx
  | case3 x xs y ys hlt ih =>
    have hsign : x < 0 ↔ y < 0 := ⟨h.sign hys, h.symm.sign hxs⟩
    have hxy : x < y :=
      (effVal_lt_iff hw (hbx x List.mem_cons_self) (hby y List.mem_cons_self) hsign).mp hlt
    refine List.pairwise_cons.mpr ⟨fun z hz => ?_, ih hxs.of_cons hys hrx.of_cons hry
      (fun z hz => hbx z (List.mem_cons_of_mem x hz)) hby (h.tail_left hsign.mp hxy)⟩
    rcases mem_unionCols hz with hz | hz
    · exact List.rel_of_pairwise_cons hrx hz
    · rcases List.mem_cons.mp hz with rfl | hz
      · exact hR x z hxy
      · exact hR x z (hxy.trans_le (List.rel_of_pairwise_cons hys hz))
  | case4 x xs y ys _ hlt ih =>
    have hsign : y < 0 ↔ x < 0 := ⟨h.symm.sign hxs, h.sign hys⟩
    have hyx : y < x :=
      (effVal_lt_iff hw (hby y List.mem_cons_self) (hbx x List.mem_cons_self) hsign).mp hlt
    refine List.pairwise_cons.mpr ⟨fun z hz => ?_, ih hxs hys.of_cons hrx hry.of_cons hbx
      (fun z hz => hby z (List.mem_cons_of_mem y hz)) (h.symm.tail_left hsign.mp hyx).symm⟩
    rcases mem_unionCols hz with hz | hz
    · rcases List.mem_cons.mp hz with rfl | hz
      · exact hR y z hyx
      · exact hR y z (hyx.trans_le (List.rel_of_pairwise_cons hxs hz))
    · exact List.rel_of_pairwise_cons hry hz
  | case5 x xs y ys hle hge ih =>
    obtain rfl : x = y :=
      effVal_inj hw (hbx x List.mem_cons_self) (hby y List.mem_cons_self) hle hge
    refine List.pairwise_cons.mpr ⟨fun z hz => ?_, ih hxs.of_cons hys.of_cons hrx.of_cons hry.of_cons
      (fun z hz => hbx z (List.mem_cons_of_mem x hz))
      (fun z hz => hby z (List.mem_cons_of_mem x hz)) (h.tail_both hxs hys)⟩
    rcases mem_unionCols hz with hz | hz
    · exact List.rel_of_pairwise_cons hrx hz
    · exact List.rel_of_pairwise_cons hry hz

/-- The union of two sorted columns is sorted if their negative values end together. -/
lemma pairwise_unionCols {w : Nat} (hw : 0 < w) {xs ys : List Int} (hxs : xs.Pairwise (· ≤ ·))
    (hys : ys.Pairwise (· ≤ ·)) (hbx : ∀ x ∈ xs, InBits w x) (hby : ∀ y ∈ ys, InBits w y)
    (h : NegativesEndTogether xs ys) : (unionCols w 0 xs ys).Pairwise (· ≤ ·) :=
  rel_unionCols hw (fun _ _ => le_of_lt) hxs hys hxs hys hbx hby h

end Datacl
