import Datacl.Sorting.SrtUniform

/-!
# The order of the buckets

Ascending buckets of unsigned images put the negative elements last, and within one sign they are
ascending.
-/

namespace Datacl

open Buckets

/-- The call accesses nothing outside of its arrays, and if it returns 0 the output is the input in
the order of the mode. -/
def SrtUniformSorts (X Y : List Int) (shift : Nat) (ordr : Ordr) : Prop :=
  ∃ status Y', srtUniform X Y shift ordr.mode = some (status, Y') ∧
    (status = 0 → Y'.Perm X ∧ ordr.Sorted Y')

/-- The two elements are in the order. -/
def Ordr.le : Ordr → Int → Int → Prop
  | .asc, x, y => x ≤ y
  | .dsc, x, y => y ≤ x

/-- The buckets stand in the order: for `asc` the elements have one sign, for `dsc` the elements of one
sign have one bucket. -/
def BucketsInOrder (shift : Nat) (X : List Int) : Ordr → Prop
  | .asc => (∀ x ∈ X, 0 ≤ x) ∨ ∀ x ∈ X, x < 0
  | .dsc => ∀ x ∈ X, ∀ y ∈ X, (0 ≤ x ↔ 0 ≤ y) → bucket shift x = bucket shift y

section

variable {shift : Nat} {x y : Int} {X Y : List Int} {ordr : Ordr}

/-- A non-negative element has a bucket before the one of a negative element. -/
lemma bucket_lt_bucket (hshift : shift < 32) (hx0 : 0 ≤ x) (hx : x < 2 ^ 31) (hy : -2 ^ 31 ≤ y)
    (hy0 : y < 0) : bucket shift x < bucket shift y := by
  have hpow : 2 ^ 31 = 2 ^ (31 - shift) * 2 ^ shift := by
    rw [← pow_add]
    congr 1
    omega
  have hlow : bucket shift x < 2 ^ (31 - shift) := by
    rw [bucket, Nat.div_lt_iff_lt_mul (by positivity), ← hpow]
    omega
  have hhigh : 2 ^ (31 - shift) ≤ bucket shift y := by
    rw [bucket, Nat.le_div_iff_mul_le (by positivity), ← hpow]
    omega
  exact hlow.trans_le hhigh

/-- Elements of one sign have ascending buckets. -/
lemma bucket_le_bucket (hsign : 0 ≤ x ↔ 0 ≤ y) (hx : -2 ^ 31 ≤ x) (hy : y < 2 ^ 31) (hxy : x ≤ y) :
    bucket shift x ≤ bucket shift y := by
  apply Nat.div_le_div_right
  omega

/-- The buckets are in order from one to the next. -/
lemma bucketsInOrder_iff (hshift : shift < 32) (hX : ∀ x ∈ X, -2 ^ 31 ≤ x ∧ x < 2 ^ 31) :
    (∀ x ∈ X, ∀ y ∈ X, bucket shift x < bucket shift y → ordr.le x y) ↔
      BucketsInOrder shift X ordr := by
  cases ordr with
  | asc =>
    constructor
    · intro h
      by_contra hsigns
      simp only [BucketsInOrder, not_or, not_forall, not_le, not_lt] at hsigns
      obtain ⟨⟨y, hy, hyneg⟩, x, hx, hx0⟩ := hsigns
      have hle : x ≤ y :=
        h x hx y hy (bucket_lt_bucket hshift hx0 (hX x hx).2 (hX y hy).1 hyneg)
      omega
    · intro hsigns x hx y hy hlt
      show x ≤ y
      have hsign : 0 ≤ y ↔ 0 ≤ x := by
        rcases hsigns with hsigns | hsigns
        · exact iff_of_true (hsigns y hy) (hsigns x hx)
        · exact iff_of_false (hsigns y hy).not_ge (hsigns x hx).not_ge
      by_contra hnle
      have hle : bucket shift y ≤ bucket shift x :=
        bucket_le_bucket hsign (hX y hy).1 (hX x hx).2 (by omega)
      omega
  | dsc =>
    constructor
    · intro h
      have hle {x y : Int} (hx : x ∈ X) (hy : y ∈ X) (hsign : 0 ≤ x ↔ 0 ≤ y) :
          bucket shift y ≤ bucket shift x := by
        by_contra hlt
        have hyx : y ≤ x := h x hx y hy (not_le.mp hlt)
        exact hlt (bucket_le_bucket hsign.symm (hX y hy).1 (hX x hx).2 hyx)
      intro x hx y hy hsign
      exact le_antisymm (hle hy hx hsign.symm) (hle hx hy hsign)
    · intro h x hx y hy hlt
      show y ≤ x
      by_contra hnle
      have hsign : ¬ (0 ≤ x ↔ 0 ≤ y) := fun hsign => hlt.ne (h x hx y hy hsign)
      have hgt := bucket_lt_bucket hshift (x := y) (y := x) (by omega) (hX y hy).2 (hX x hx).1
        (by omega)
      omega

lemma Ordr.sorted_iff (vals : List Int) : ordr.Sorted vals ↔ vals.Pairwise ordr.le := by
  cases ordr <;> rfl

lemma Ordr.qsortI4_sorted (ordr : Ordr) (xs : List Int) : ordr.Sorted (ordr.qsortI4 xs) := by
  cases ordr with
  | asc => exact xs.pairwise_insertionSort _
  | dsc => exact xs.pairwise_insertionSort _

/-- The sorted buckets one after another. -/
lemma sortedBuckets_sorted_iff (hlt : ∀ x ∈ X, bucket shift x < numThreads) :
    ordr.Sorted (joined (fun b => ordr.qsortI4 (havingKey (bucket shift) X b)) numThreads) ↔
      ∀ x ∈ X, ∀ y ∈ X, bucket shift x < bucket shift y → ordr.le x y := by
  rw [Ordr.sorted_iff, pairwise_joined]
  simp only [(ordr.qsortI4_perm _).mem_iff, mem_havingKey]
  constructor
  · rintro ⟨-, h⟩ x hx y hy hxy
    exact h _ _ hxy (hlt y hy) x ⟨hx, rfl⟩ y ⟨hy, rfl⟩
  · intro h
    refine ⟨fun b _ => (Ordr.sorted_iff _).mp (ordr.qsortI4_sorted _), ?_⟩
    rintro b c hbc - x ⟨hx, rfl⟩ y ⟨hy, rfl⟩
    exact h x hx y hy hbc

lemma sortedBuckets_perm (hlt : ∀ x ∈ X, bucket shift x < numThreads) :
    (joined (fun b => ordr.qsortI4 (havingKey (bucket shift) X b)) numThreads).Perm X :=
  (joined_perm fun _ _ => ordr.qsortI4_perm _).trans (joined_havingKey_perm _ hlt)

/-- With a bin for every element. -/
lemma srtUniform_sorts_of_bins (hlen : 16777216 ≤ X.length) (hint : X.length < 2 ^ 31)
    (hY : Y.length = X.length) (hX : ∀ x ∈ X, -2 ^ 31 ≤ x ∧ x < 2 ^ 31) (hshift : shift < 32)
    (hzero : shift = 0 → ∀ x ∈ X, 0 ≤ x) :
    SrtUniformSorts X Y shift ordr ↔
      ((∀ x ∈ X, bucket shift x < numThreads) → BucketsInOrder shift X ordr) := by
  have hall : AllBins shift X := fun x hx => ⟨⟨hshift, fun h => hzero h x hx⟩, (hX x hx).2⟩
  unfold SrtUniformSorts
  rw [srtUniform_eq ordr hlen hint hY hall]
  by_cases hlt : ∀ x ∈ X, bucket shift x < numThreads
  · rw [if_pos hlt, ← bucketsInOrder_iff hshift hX, ← sortedBuckets_sorted_iff hlt]
    constructor
    · rintro ⟨status, Y', heq, h⟩ -
      rw [Option.some_inj, Prod.mk.injEq] at heq
      obtain ⟨rfl, rfl⟩ := heq
      exact (h rfl).2
    · intro h
      exact ⟨0, _, rfl, fun _ => ⟨sortedBuckets_perm hlt, h hlt⟩⟩
  · rw [if_neg hlt]
    exact iff_of_true ⟨-1, Y, rfl, fun h => absurd h (by decide)⟩ fun h => absurd h hlt

end

/-- `srt_uniform_I4` sorts exactly if the shift is defined, no element is negative when nothing is
shifted, and the buckets stand in the order of the mode unless an element has no bucket. -/
theorem srtUniform_sorts_iff (X Y : List Int) (shift : Nat) (ordr : Ordr)
    (hlen : 16777216 ≤ X.length) (hint : X.length < 2 ^ 31) (hY : Y.length = X.length)
    (hX : ∀ x ∈ X, -2 ^ 31 ≤ x ∧ x < 2 ^ 31) :
    SrtUniformSorts X Y shift ordr ↔
      shift < 32 ∧ (shift = 0 → ∀ x ∈ X, 0 ≤ x) ∧
      ((∀ x ∈ X, bucket shift x < numThreads) → BucketsInOrder shift X ordr) := by
  by_cases hdef : ∀ x ∈ X, BinDefined shift x
  · have hne : X ≠ [] := List.length_pos_iff.mp (by omega)
    obtain ⟨x, hx⟩ := List.exists_mem_of_ne_nil X hne
    have hshift := (hdef x hx).1
    have hzero : shift = 0 → ∀ x ∈ X, 0 ≤ x := fun h x hx => (hdef x hx).2 h
    rw [srtUniform_sorts_of_bins hlen hint hY hX hshift hzero]
    exact ⟨fun h => ⟨hshift, hzero, h⟩, fun h => h.2.2⟩
  · apply iff_of_false
    · rintro ⟨status, Y', heq, -⟩
      push Not at hdef
      rw [srtUniform_eq_none ordr hlen (fun x hx => (hX x hx).1) hdef] at heq
      cases heq
    · rintro ⟨hshift, hzero, -⟩
      exact hdef fun x hx => ⟨hshift, fun h => hzero h x hx⟩

/-- Zeros are sorted. -/
theorem srtUniform_sorts_zeros :
    SrtUniformSorts (List.replicate 16777216 0) (List.replicate 16777216 0) 26 .asc := by
  have hmem : ∀ x ∈ List.replicate 16777216 (0 : Int), x = 0 := fun x hx => List.eq_of_mem_replicate hx
  apply (srtUniform_sorts_iff _ _ 26 .asc (by rw [List.length_replicate])
    (by rw [List.length_replicate]; norm_num) rfl
    (fun x hx => by rw [hmem x hx]; norm_num)).mpr
  refine ⟨by norm_num, fun h => absurd h (by norm_num), fun _ => Or.inl fun x hx => (hmem x hx).ge⟩

/-- Among zeros one element is -1: it comes last, although it is the smallest. -/
theorem srtUniform_negative_last :
    ¬ SrtUniformSorts (-1 :: List.replicate 16777216 0) (-1 :: List.replicate 16777216 0) 26 .asc := by
  have hmem : ∀ x ∈ -1 :: List.replicate 16777216 (0 : Int), x = -1 ∨ x = 0 := by
    intro x hx
    rcases List.mem_cons.mp hx with rfl | hx
    · exact Or.inl rfl
    · exact Or.inr (List.eq_of_mem_replicate hx)
  have hlength : (-1 :: List.replicate 16777216 (0 : Int)).length = 16777217 := by
    rw [List.length_cons, List.length_replicate]
  rw [srtUniform_sorts_of_bins (by rw [hlength]; norm_num) (by rw [hlength]; norm_num) rfl
    (fun x hx => by rcases hmem x hx with rfl | rfl <;> norm_num) (by norm_num)
    (fun h => absurd h (by norm_num))]
  intro h
  have hbuckets : ∀ x ∈ -1 :: List.replicate 16777216 (0 : Int), bucket 26 x < numThreads := by
    intro x hx
    rcases hmem x hx with rfl | rfl <;> decide
  rcases h hbuckets with h | h
  · exact absurd (h (-1) List.mem_cons_self) (by norm_num)
  · have hzero : (0 : Int) ∈ -1 :: List.replicate 16777216 (0 : Int) :=
      List.mem_cons_of_mem _ (List.mem_replicate.mpr ⟨by norm_num, rfl⟩)
    exact absurd (h 0 hzero) (lt_irrefl _)

end Datacl
