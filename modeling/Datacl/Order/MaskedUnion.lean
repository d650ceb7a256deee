import Datacl.Order.Union

/-!
# The masked union

With a mask, an element is a key in the high bits and a count in the low bits. The merge goes by the
keys. For a key of both columns the counts are taken from the masked values, so that the result has
the count 0.
-/

namespace Datacl

/-- The mask of the low `k` bits. -/
def lowMask (w k : Nat) : BitVec w := BitVec.ofNat w (2 ^ k - 1)

/-- The key of an element. -/
def keyOf (k : Nat) (x : Int) : Int := x / 2 ^ k

/-- The count of an element. -/
def countOf (k : Nat) (x : Int) : Int := x % 2 ^ k

variable {w k : Nat} {xs ys : List Int}

/-! ### What is compared -/

lemma keyOf_neg_iff {x : Int} : keyOf k x < 0 ↔ x < 0 := by
  rw [keyOf, Int.ediv_lt_iff_lt_mul (by positivity), zero_mul]

lemma keyOf_mono {x y : Int} (h : x ≤ y) : keyOf k x ≤ keyOf k y :=
  Int.ediv_le_ediv (by positivity) h

lemma keyOf_shift (k : Nat) (κ : Int) : keyOf k (κ * 2 ^ k) = κ :=
  Int.mul_ediv_cancel κ (by positivity)

lemma countOf_shift (k : Nat) (κ : Int) : countOf k (κ * 2 ^ k) = 0 := Int.mul_emod_left κ _

lemma shift_neg_iff {x : Int} : keyOf k x * 2 ^ k < 0 ↔ x < 0 := by
  have hpos : (0 : Int) < 2 ^ k := by positivity
  rw [← keyOf_neg_iff (k := k) (x := x)]
  exact ⟨fun h => neg_of_mul_neg_left h hpos.le, fun h => mul_neg_of_neg_of_pos h hpos⟩

lemma getLsbD_lowMask (w k i : Nat) :
    (lowMask w k).getLsbD i = (decide (i < w) && decide (i < k)) := by
  rw [lowMask, BitVec.getLsbD_ofNat, Nat.testBit_two_pow_sub_one]

lemma lowMask_ne_zero (h0 : 0 < k) (hk : k < w) : lowMask w k ≠ 0 := by
  intro h
  have hbit : (lowMask w k).getLsbD 0 = false := by
    rw [h]
    exact BitVec.getLsbD_zero
  rw [getLsbD_lowMask] at hbit
  simp [h0, h0.trans hk] at hbit

/-- Clearing the bits of the mask. -/
lemma and_not_lowMask (b : BitVec w) : b &&& ~~~ lowMask w k = (b >>> k) <<< k := by
  apply BitVec.eq_of_getLsbD_eq
  intro i hi
  rw [BitVec.getLsbD_and, BitVec.getLsbD_not, getLsbD_lowMask, BitVec.getLsbD_shiftLeft,
    BitVec.getLsbD_ushiftRight]
  by_cases hik : i < k
  · simp [hik, hi]
  · simp [hik, hi, Nat.add_sub_cancel' (not_lt.mp hik)]

lemma inBits_key (hk : k < w) {x : Int} (hx : InBits w x) : InBits w (keyOf k x * 2 ^ k) := by
  have hsplit : (2 : Int) ^ (w - 1) = 2 ^ (w - 1 - k) * 2 ^ k := by
    rw [← pow_add, Nat.sub_add_cancel (by omega)]
  have hpos : (0 : Int) < 2 ^ k := by positivity
  obtain ⟨hlo, hhi⟩ := hx
  constructor
  · rw [hsplit, ← neg_mul]
    refine Int.mul_le_mul_of_nonneg_right ?_ hpos.le
    rw [keyOf, Int.le_ediv_iff_mul_le hpos, neg_mul, ← hsplit]
    exact hlo
  · exact (Int.ediv_mul_le x hpos.ne').trans_lt hhi

/-- Only the key is compared. -/
lemma effVal_lowMask (h0 : 0 < k) (hk : k < w) {x : Int} (hx : InBits w x) :
    effVal w (lowMask w k) x = effVal w 0 (keyOf k x * 2 ^ k) := by
  have hw : 0 < w := by omega
  have hpos : (0 : Int) < 2 ^ k := by positivity
  have hsplit : (2 : Int) ^ w = 2 ^ (w - k) * 2 ^ k := by
    rw [← pow_add, Nat.sub_add_cancel (by omega)]
  have hplain : effVal w 0 x = BitVec.ofInt w x := if_neg (by simp)
  rw [effVal, if_pos (lowMask_ne_zero h0 hk), and_not_lowMask, ← hplain]
  apply BitVec.eq_of_toNat_eq
  have hlt : (effVal w 0 x).toNat / 2 ^ k * 2 ^ k < 2 ^ w :=
    (Nat.div_mul_le_self _ _).trans_lt (effVal w 0 x).isLt
  rw [BitVec.toNat_shiftLeft, BitVec.toNat_ushiftRight, Nat.shiftRight_eq_div_pow, Nat.shiftLeft_eq,
    Nat.mod_eq_of_lt hlt]
  have h1 := toNat_effVal hw hx
  have h2 := toNat_effVal hw (inBits_key hk hx)
  simp only [shift_neg_iff] at h2
  have hcast : (((effVal w 0 x).toNat / 2 ^ k * 2 ^ k : Nat) : Int) =
      ((effVal w 0 (keyOf k x * 2 ^ k)).toNat : Int) := by
    push_cast
    rw [h1, h2]
    split_ifs with hx0
    · rw [hsplit, Int.add_mul_ediv_right _ _ hpos.ne', add_mul, keyOf]
    · rfl
  exact_mod_cast hcast

/-- The key of `x` is the smaller one as an unsigned integer. -/
def SmallerKey (k : Nat) (x y : Int) : Prop :=
  keyOf k x < keyOf k y ∧ (x < 0 ↔ y < 0) ∨ 0 ≤ x ∧ y < 0

lemma smallerKey_of_effVal (h0 : 0 < k) (hk : k < w) {x y : Int} (hx : InBits w x) (hy : InBits w y)
    (h : effVal w (lowMask w k) x < effVal w (lowMask w k) y) : SmallerKey k x y := by
  have hw : 0 < w := by omega
  have hpos : (0 : Int) < 2 ^ k := by positivity
  rw [effVal_lowMask h0 hk hx, effVal_lowMask h0 hk hy] at h
  by_cases hsign : x < 0 ↔ y < 0
  · refine .inl ⟨?_, hsign⟩
    have hlt := (effVal_lt_iff hw (inBits_key hk hx) (inBits_key hk hy)
      (by rwa [shift_neg_iff, shift_neg_iff])).mp h
    exact lt_of_mul_lt_mul_right hlt hpos.le
  · right
    by_contra hno
    have hxy : x < 0 ∧ 0 ≤ y := by omega
    refine BitVec.lt_asymm h (effVal_lt_of_sign hw (inBits_key hk hy) (inBits_key hk hx) ?_ ?_)
    · exact not_lt.mp fun hneg => absurd (shift_neg_iff.mp hneg) (by omega)
    · exact shift_neg_iff.mpr hxy.1

lemma keyOf_eq_of_effVal (h0 : 0 < k) (hk : k < w) {x y : Int} (hx : InBits w x) (hy : InBits w y)
    (hxy : ¬ effVal w (lowMask w k) x < effVal w (lowMask w k) y)
    (hyx : ¬ effVal w (lowMask w k) y < effVal w (lowMask w k) x) : keyOf k x = keyOf k y := by
  rw [effVal_lowMask h0 hk hx, effVal_lowMask h0 hk hy] at hxy hyx
  have heq := effVal_inj (by omega) (inBits_key hk hx) (inBits_key hk hy) hxy hyx
  exact mul_right_cancel₀ (by positivity) heq

/-- The counts of the masked values are 0. -/
lemma unionVal_lowMask (h0 : 0 < k) (hk : k < w) {x : Int} (hx : InBits w x) (y : Int) :
    unionVal w (lowMask w k) x y = keyOf k x * 2 ^ k := by
  have hmask : ∀ z, effVal w (lowMask w k) z &&& lowMask w k = 0 := by
    intro z
    rw [effVal, if_pos (lowMask_ne_zero h0 hk), BitVec.and_assoc]
    simp
  have hbits := inBits_key hk hx
  rw [unionVal, if_neg (lowMask_ne_zero h0 hk)]
  dsimp only
  rw [hmask, hmask, effVal_lowMask h0 hk hx]
  have hplain : effVal w 0 (keyOf k x * 2 ^ k) = BitVec.ofInt w (keyOf k x * 2 ^ k) :=
    if_neg (by simp)
  rw [hplain]
  simp [BitVec.toInt_ofInt_eq_self (by omega) hbits.1 hbits.2]

/-! ### The elements with a key -/

def keys (k : Nat) (zs : List Int) : List Int := zs.map (keyOf k)

def withKey (k : Nat) (κ : Int) (zs : List Int) : List Int := zs.filter fun z => keyOf k z = κ

/-- The count that a column has for a key. -/
def totalCount (k : Nat) (κ : Int) (zs : List Int) : Int := ((withKey k κ zs).map (countOf k)).sum

/-- Every key of either column occurs once in `zs`, with the sum of the counts. -/
def AddsCounts (k : Nat) (xs ys zs : List Int) : Prop :=
  ∀ κ, κ ∈ keys k xs ∨ κ ∈ keys k ys →
    ∃ z, withKey k κ zs = [z] ∧ countOf k z = totalCount k κ xs + totalCount k κ ys

/-- If the columns share a non-negative key, their negative keys end together. -/
def KeysPairUp (k : Nat) (xs ys : List Int) : Prop :=
  ∀ κ, 0 ≤ κ → κ ∈ keys k xs → κ ∈ keys k ys → NegativesEndTogether (keys k xs) (keys k ys)

lemma length_withKey (k : Nat) (κ : Int) (zs : List Int) :
    (withKey k κ zs).length = (keys k zs).count κ := by
  rw [withKey, ← List.countP_eq_length_filter, keys, List.count, List.countP_map]
  refine List.countP_congr fun z _ => ?_
  simp

lemma withKey_eq_nil {κ : Int} {zs : List Int} (h : κ ∉ keys k zs) : withKey k κ zs = [] := by
  apply List.eq_nil_of_length_eq_zero
  rw [length_withKey, List.count_eq_zero]
  exact h

lemma withKey_cons_self (x : Int) (zs : List Int) :
    withKey k (keyOf k x) (x :: zs) = x :: withKey k (keyOf k x) zs :=
  List.filter_cons_of_pos (by simp)

lemma withKey_cons_of_ne {κ x : Int} (h : keyOf k x ≠ κ) (zs : List Int) :
    withKey k κ (x :: zs) = withKey k κ zs := List.filter_cons_of_neg (by simpa using h)

lemma exists_withKey_eq {κ : Int} {zs : List Int} (hnd : (keys k zs).Nodup) (h : κ ∈ keys k zs) :
    ∃ z, withKey k κ zs = [z] := by
  apply List.length_eq_one_iff.mp
  rw [length_withKey, List.count_eq_one_of_mem hnd h]

lemma keyOf_of_mem_withKey {κ z : Int} {zs : List Int} (h : z ∈ withKey k κ zs) :
    z ∈ zs ∧ keyOf k z = κ := by
  simpa [withKey] using h

lemma keys_cons (k : Nat) (x : Int) (zs : List Int) : keys k (x :: zs) = keyOf k x :: keys k zs := rfl

lemma head_le {a z : Int} {zs : List Int} (h : (a :: zs).Pairwise (· ≤ ·)) (hz : z ∈ a :: zs) :
    a ≤ z := by
  rcases List.mem_cons.mp hz with rfl | hz
  · exact le_rfl
  · exact List.rel_of_pairwise_cons h hz

/-- If one column has non-negative values only, the other one begins with a non-negative value. -/
lemma NegativesEndTogether.nonneg_of_nonneg {as bs : List Int} {b κ : Int}
    (h : NegativesEndTogether as (b :: bs)) (has : as.Pairwise (· ≤ ·)) (hmem : κ ∈ as)
    (hall : ∀ a ∈ as, 0 ≤ a) : 0 ≤ b := by
  cases as with
  | nil => exact absurd hmem List.not_mem_nil
  | cons a as =>
    by_contra hb
    have ha := h.symm.sign has (not_le.mp hb)
    exact absurd (hall a List.mem_cons_self) (not_le.mpr ha)

lemma keys_pairwise {zs : List Int} (h : zs.Pairwise (· ≤ ·)) : (keys k zs).Pairwise (· ≤ ·) :=
  List.pairwise_map.mpr (h.imp keyOf_mono)

lemma totalCount_of_not_mem {κ : Int} {zs : List Int} (h : κ ∉ keys k zs) :
    totalCount k κ zs = 0 := by
  rw [totalCount, withKey_eq_nil h]
  rfl

lemma countOf_nonneg (k : Nat) (x : Int) : 0 ≤ countOf k x := Int.emod_nonneg x (by positivity)

lemma countOf_le_totalCount {x : Int} {zs : List Int} (hx : x ∈ zs) :
    countOf k x ≤ totalCount k (keyOf k x) zs := by
  refine List.single_le_sum (fun c hc => ?_) _ (List.mem_map_of_mem ?_)
  · obtain ⟨z, -, rfl⟩ := List.mem_map.mp hc
    exact countOf_nonneg k z
  · exact List.mem_filter.mpr ⟨hx, decide_eq_true rfl⟩

lemma totalCount_of_withKey {κ z : Int} {zs : List Int} (h : withKey k κ zs = [z]) :
    totalCount k κ zs = countOf k z := by
  rw [totalCount, h]
  simp

/-! ### Keys that pair up -/

lemma KeysPairUp.symm (h : KeysPairUp k xs ys) : KeysPairUp k ys xs :=
  fun κ hκ hy hx => (h κ hκ hx hy).symm

lemma KeysPairUp.not_mem {x y : Int} (h : KeysPairUp k (x :: xs) (y :: ys))
    (hxs : (keys k (x :: xs)).Pairwise (· ≤ ·)) (hys : (keys k (y :: ys)).Pairwise (· ≤ ·))
    (hlt : SmallerKey k x y) : keyOf k x ∉ keys k (y :: ys) := by
  intro hmem
  rcases hlt with ⟨hkey, -⟩ | ⟨hx0, hy0⟩
  · exact absurd (head_le hys hmem) (not_le.mpr hkey)
  · have hpos : 0 ≤ keyOf k x := not_lt.mp fun hneg => absurd (keyOf_neg_iff.mp hneg) (not_lt.mpr hx0)
    have hnet := h (keyOf k x) hpos List.mem_cons_self hmem
    exact absurd (hnet.symm.sign hxs (keyOf_neg_iff.mpr hy0)) (not_lt.mpr hpos)

lemma KeysPairUp.tail {x y : Int} (h : KeysPairUp k (x :: xs) (y :: ys))
    (hxs : (keys k (x :: xs)).Pairwise (· ≤ ·)) (hlt : SmallerKey k x y) :
    KeysPairUp k xs (y :: ys) := by
  intro κ hκ hx hy
  have hnet := h κ hκ (List.mem_cons_of_mem _ hx) hy
  rcases hlt with ⟨hkey, hsign⟩ | ⟨hx0, hy0⟩
  · exact hnet.tail_left (fun h => keyOf_neg_iff.mpr (hsign.mp (keyOf_neg_iff.mp h))) hkey
  · have hneg := keyOf_neg_iff.mp (hnet.symm.sign hxs (keyOf_neg_iff.mpr hy0))
    exact absurd hneg (not_lt.mpr hx0)

/-! ### The merge -/

section Merge

variable (h0 : 0 < k) (hk : k < w) (hbx : ∀ x ∈ xs, InBits w x) (hby : ∀ y ∈ ys, InBits w y)
include h0 hk hbx hby

lemma keys_sublist_left : (keys k xs).Sublist (keys k (unionCols w (lowMask w k) xs ys)) := by
  fun_induction unionCols w (lowMask w k) xs ys with
  | case1 ys => exact List.nil_sublist _
  | case2 x xs => exact List.Sublist.refl _
  | case3 x xs y ys _ ih =>
    rw [List.forall_mem_cons] at hbx
    exact (ih hbx.2 hby).cons_cons _
  | case4 x xs y ys _ _ ih =>
    rw [List.forall_mem_cons] at hby
    exact (ih hbx hby.2).cons _
  | case5 x xs y ys _ _ ih =>
    rw [List.forall_mem_cons] at hbx hby
    rw [unionVal_lowMask h0 hk hbx.1, keys, keys, List.map_cons, List.map_cons, keyOf_shift]
    exact (ih hbx.2 hby.2).cons_cons _

lemma keys_sublist_right : (keys k ys).Sublist (keys k (unionCols w (lowMask w k) xs ys)) := by
  fun_induction unionCols w (lowMask w k) xs ys with
  | case1 ys => exact List.Sublist.refl _
  | case2 x xs => exact List.nil_sublist _
  | case3 x xs y ys _ ih =>
    rw [List.forall_mem_cons] at hbx
    exact (ih hbx.2 hby).cons _
  | case4 x xs y ys _ _ ih =>
    rw [List.forall_mem_cons] at hby
    exact (ih hbx hby.2).cons_cons _
  | case5 x xs y ys hle hge ih =>
    rw [List.forall_mem_cons] at hbx hby
    rw [unionVal_lowMask h0 hk hbx.1, keys, keys, List.map_cons, List.map_cons, keyOf_shift,
      keyOf_eq_of_effVal h0 hk hbx.1 hby.1 hle hge]
    exact (ih hbx.2 hby.2).cons_cons _

/-- If a non-negative key of both columns occurs once in the union, the negative keys end
together. -/
lemma negativesEndTogether_of_count {κ : Int} (hκ : 0 ≤ κ) (hxs : (keys k xs).Pairwise (· ≤ ·))
    (hys : (keys k ys).Pairwise (· ≤ ·)) (hx : κ ∈ keys k xs) (hy : κ ∈ keys k ys)
    (hone : (keys k (unionCols w (lowMask w k) xs ys)).count κ ≤ 1) :
    NegativesEndTogether (keys k xs) (keys k ys) := by
  fun_induction unionCols w (lowMask w k) xs ys with
  | case1 ys => exact absurd hx List.not_mem_nil
  | case2 x xs => exact absurd hy List.not_mem_nil
  | case3 x xs y ys hlt ih =>
    rw [List.forall_mem_cons] at hbx
    rw [keys_cons, List.count_cons] at hone
    rw [keys_cons] at hxs hx ⊢
    have hagain := List.count_pos_iff.mpr ((keys_sublist_right h0 hk hbx.2 hby).subset hy)
    have hne : keyOf k x ≠ κ := by
      rintro rfl
      simp only [beq_self_eq_true, if_true] at hone
      omega
    have hx' : κ ∈ keys k xs := (List.mem_cons.mp hx).resolve_left (Ne.symm hne)
    have hnet := ih hbx.2 hby hxs.of_cons hys hx' hy (by omega)
    rcases smallerKey_of_effVal h0 hk hbx.1 (hby y List.mem_cons_self) hlt with
      ⟨hkey, hsign⟩ | ⟨hx0, hy0⟩
    · exact hnet.cons_left hys (fun h => keyOf_neg_iff.mpr (hsign.mp (keyOf_neg_iff.mp h))) hkey
    · have hpos := hnet.nonneg_of_nonneg hxs.of_cons hx' fun z hz =>
        (not_lt.mp fun h => absurd (keyOf_neg_iff.mp h) (not_lt.mpr hx0)).trans
          (List.rel_of_pairwise_cons hxs hz)
      exact absurd (keyOf_neg_iff.mpr hy0) (not_lt.mpr hpos)
  | case4 x xs y ys _ hlt ih =>
    rw [List.forall_mem_cons] at hby
    rw [keys_cons, List.count_cons] at hone
    rw [keys_cons] at hys hy
    rw [keys_cons k y]
    have hagain := List.count_pos_iff.mpr ((keys_sublist_left h0 hk hbx hby.2).subset hx)
    have hne : keyOf k y ≠ κ := by
      rintro rfl
      simp only [beq_self_eq_true, if_true] at hone
      omega
    have hy' : κ ∈ keys k ys := (List.mem_cons.mp hy).resolve_left (Ne.symm hne)
    have hnet := (ih hbx hby.2 hxs hys.of_cons hx hy' (by omega)).symm
    rcases smallerKey_of_effVal h0 hk hby.1 (hbx x List.mem_cons_self) hlt with
      ⟨hkey, hsign⟩ | ⟨hy0, hx0⟩
    · exact (hnet.cons_left hxs
        (fun h => keyOf_neg_iff.mpr (hsign.mp (keyOf_neg_iff.mp h))) hkey).symm
    · have hpos := hnet.nonneg_of_nonneg hys.of_cons hy' fun z hz =>
        (not_lt.mp fun h => absurd (keyOf_neg_iff.mp h) (not_lt.mpr hy0)).trans
          (List.rel_of_pairwise_cons hys hz)
      exact absurd (keyOf_neg_iff.mpr hx0) (not_lt.mpr hpos)
  | case5 x xs y ys hle hge ih =>
    rw [List.forall_mem_cons] at hbx hby
    have hkey := keyOf_eq_of_effVal h0 hk hbx.1 hby.1 hle hge
    rw [unionVal_lowMask h0 hk hbx.1, keys_cons, keyOf_shift, List.count_cons] at hone
    rw [keys_cons] at hxs hys hx hy
    rw [keys_cons, keys_cons, ← hkey]
    rw [← hkey] at hys hy
    by_cases hne : keyOf k x = κ
    · -- all keys are at least as large as the shared one
      refine negativesEndTogether_of_nonneg (fun z hz => ?_) (fun z hz => ?_)
      · exact hκ.trans (hne ▸ head_le hxs hz)
      · exact hκ.trans (hne ▸ head_le hys hz)
    · have hx' : κ ∈ keys k xs := (List.mem_cons.mp hx).resolve_left (Ne.symm hne)
      have hy' : κ ∈ keys k ys := (List.mem_cons.mp hy).resolve_left (Ne.symm hne)
      exact (ih hbx.2 hby.2 hxs.of_cons hys.of_cons hx' hy' (by omega)).cons_both hxs hys

/-- The elements of the union with a key, when no column repeats a key and the keys pair up. -/
lemma withKey_unionCols (κ : Int) (hxs : (keys k xs).Pairwise (· < ·))
    (hys : (keys k ys).Pairwise (· < ·)) (hpair : KeysPairUp k xs ys) :
    withKey k κ (unionCols w (lowMask w k) xs ys) =
      if κ ∈ keys k xs ∧ κ ∈ keys k ys then [κ * 2 ^ k] else withKey k κ xs ++ withKey k κ ys := by
  have hle : ∀ {zs : List Int}, zs.Pairwise (· < ·) → zs.Pairwise (· ≤ ·) :=
    fun h => h.imp le_of_lt
  have hnew : ∀ {z : Int} {zs : List Int}, (keys k (z :: zs)).Pairwise (· < ·) →
      keyOf k z ∉ keys k zs :=
    fun h hmem => lt_irrefl _ (List.rel_of_pairwise_cons h hmem)
  fun_induction unionCols w (lowMask w k) xs ys with
  | case1 ys => simp [keys, withKey]
  | case2 x xs => simp [keys, withKey]
  | case3 x xs y ys hlt ih =>
    rw [List.forall_mem_cons] at hbx
    have hsmall := smallerKey_of_effVal h0 hk hbx.1 (hby y List.mem_cons_self) hlt
    have hother := hpair.not_mem (hle hxs) (hle hys) hsmall
    have hrest := ih hbx.2 hby hxs.of_cons hys (hpair.tail (hle hxs) hsmall)
    by_cases hκ : keyOf k x = κ
    · subst hκ
      rw [if_neg fun h => hnew hxs h.1] at hrest
      rw [if_neg fun h => hother h.2, withKey_cons_self, withKey_cons_self, hrest, List.cons_append]
    · rw [withKey_cons_of_ne hκ, withKey_cons_of_ne hκ, hrest, keys_cons k x]
      simp only [List.mem_cons, Ne.symm hκ, false_or]
  | case4 x xs y ys _ hlt ih =>
    rw [List.forall_mem_cons] at hby
    have hsmall := smallerKey_of_effVal h0 hk hby.1 (hbx x List.mem_cons_self) hlt
    have hother := hpair.symm.not_mem (hle hys) (hle hxs) hsmall
    have hrest := ih hbx hby.2 hxs hys.of_cons (hpair.symm.tail (hle hys) hsmall).symm
    by_cases hκ : keyOf k y = κ
    · subst hκ
      rw [if_neg fun h => hother h.1, withKey_eq_nil hother, List.nil_append] at hrest
      rw [if_neg fun h => hother h.1, withKey_cons_self, withKey_cons_self, withKey_eq_nil hother,
        hrest, List.nil_append]
    · rw [withKey_cons_of_ne hκ, withKey_cons_of_ne hκ, hrest, keys_cons k y]
      simp only [List.mem_cons, Ne.symm hκ, false_or]
  | case5 x xs y ys hxy hyx ih =>
    rw [List.forall_mem_cons] at hbx hby
    have hkey := keyOf_eq_of_effVal h0 hk hbx.1 hby.1 hxy hyx
    have htail : KeysPairUp k xs ys := by
      intro κ' hκ' hx hy
      have hnet := hpair κ' hκ' (List.mem_cons_of_mem _ hx) (List.mem_cons_of_mem _ hy)
      rw [keys_cons, keys_cons, ← hkey] at hnet
      exact hnet.tail_both (hle hxs) (by rw [hkey]; exact hle hys)
    have hrest := ih hbx.2 hby.2 hxs.of_cons hys.of_cons htail
    rw [unionVal_lowMask h0 hk hbx.1]
    by_cases hκ : keyOf k x = κ
    · subst hκ
      have hnewy : keyOf k x ∉ keys k ys := hkey ▸ hnew hys
      have hself : withKey k (keyOf k x) (keyOf k x * 2 ^ k :: unionCols w (lowMask w k) xs ys) =
          keyOf k x * 2 ^ k :: withKey k (keyOf k x) (unionCols w (lowMask w k) xs ys) :=
        List.filter_cons_of_pos (by simp [keyOf_shift])
      rw [if_neg fun h => hnew hxs h.1, withKey_eq_nil (hnew hxs), withKey_eq_nil hnewy] at hrest
      have hboth : keyOf k x ∈ keys k (x :: xs) ∧ keyOf k x ∈ keys k (y :: ys) :=
        ⟨List.mem_cons_self, hkey ▸ List.mem_cons_self⟩
      rw [if_pos hboth, hself, hrest]
      rfl
    · rw [withKey_cons_of_ne (by rwa [keyOf_shift]), withKey_cons_of_ne hκ,
        withKey_cons_of_ne (hkey ▸ hκ), hrest, keys_cons, keys_cons, ← hkey]
      simp only [List.mem_cons, Ne.symm hκ, false_or]

end Merge

/-- Once the keys are known to pair up, only the counts of shared keys matter. -/
lemma addsCounts_iff_of_keysPairUp (h0 : 0 < k) (hk : k < w) (hbx : ∀ x ∈ xs, InBits w x)
    (hby : ∀ y ∈ ys, InBits w y) (hxs : (keys k xs).Pairwise (· < ·))
    (hys : (keys k ys).Pairwise (· < ·)) (hpair : KeysPairUp k xs ys) :
    AddsCounts k xs ys (unionCols w (lowMask w k) xs ys) ↔
      ∀ x ∈ xs, ∀ y ∈ ys, keyOf k x = keyOf k y → countOf k x = 0 ∧ countOf k y = 0 := by
  constructor
  · intro h x hx y hy hkey
    have hmx : keyOf k x ∈ keys k xs := List.mem_map_of_mem hx
    have hmy : keyOf k x ∈ keys k ys := hkey ▸ List.mem_map_of_mem hy
    obtain ⟨z, hz, hsum⟩ := h (keyOf k x) (.inl hmx)
    rw [withKey_unionCols h0 hk hbx hby _ hxs hys hpair, if_pos ⟨hmx, hmy⟩] at hz
    rw [← List.singleton_inj.mp hz, countOf_shift] at hsum
    have hlex := countOf_le_totalCount (k := k) hx
    have hley := countOf_le_totalCount (k := k) hy
    rw [← hkey] at hley
    have hx0 := countOf_nonneg k x
    have hy0 := countOf_nonneg k y
    omega
  · intro hzero κ hκ
    rw [withKey_unionCols h0 hk hbx hby κ hxs hys hpair]
    have hndx : (keys k xs).Nodup := hxs.imp ne_of_lt
    have hndy : (keys k ys).Nodup := hys.imp ne_of_lt
    by_cases hx : κ ∈ keys k xs
    · obtain ⟨x, hwx⟩ := exists_withKey_eq hndx hx
      have hxin : x ∈ withKey k κ xs := hwx ▸ List.mem_singleton.mpr rfl
      obtain ⟨hxmem, rfl⟩ := keyOf_of_mem_withKey hxin
      by_cases hy : keyOf k x ∈ keys k ys
      · obtain ⟨y, hwy⟩ := exists_withKey_eq hndy hy
        have hyin : y ∈ withKey k (keyOf k x) ys := hwy ▸ List.mem_singleton.mpr rfl
        obtain ⟨hymem, hkey⟩ := keyOf_of_mem_withKey hyin
        obtain ⟨hcx, hcy⟩ := hzero x hxmem y hymem hkey.symm
        refine ⟨keyOf k x * 2 ^ k, if_pos ⟨hx, hy⟩, ?_⟩
        rw [totalCount_of_withKey hwx, totalCount_of_withKey hwy, hcx, hcy, countOf_shift]
        rfl
      · refine ⟨x, ?_, ?_⟩
        · rw [if_neg fun h => hy h.2, withKey_eq_nil hy, hwx, List.append_nil]
        · rw [totalCount_of_withKey hwx, totalCount_of_not_mem hy, add_zero]
    · obtain ⟨y, hwy⟩ := exists_withKey_eq hndy (hκ.resolve_left hx)
      refine ⟨y, ?_, ?_⟩
      · rw [if_neg fun h => hx h.1, withKey_eq_nil hx, hwy, List.nil_append]
      · rw [totalCount_of_withKey hwy, totalCount_of_not_mem hx, zero_add]

/-- The masked union adds the counts exactly if neither column repeats a key, the keys pair up, and
the elements of a shared key have the count 0. -/
theorem unionCols_addsCounts_iff (h0 : 0 < k) (hk : k < w) (hxs : xs.Pairwise (· ≤ ·))
    (hys : ys.Pairwise (· ≤ ·)) (hbx : ∀ x ∈ xs, InBits w x) (hby : ∀ y ∈ ys, InBits w y) :
    AddsCounts k xs ys (unionCols w (lowMask w k) xs ys) ↔
      (keys k xs).Nodup ∧ (keys k ys).Nodup ∧ KeysPairUp k xs ys ∧
        ∀ x ∈ xs, ∀ y ∈ ys, keyOf k x = keyOf k y → countOf k x = 0 ∧ countOf k y = 0 := by
  have hkx : (keys k xs).Pairwise (· ≤ ·) := keys_pairwise hxs
  have hky : (keys k ys).Pairwise (· ≤ ·) := keys_pairwise hys
  constructor
  · intro h
    have hone : ∀ κ, κ ∈ keys k xs ∨ κ ∈ keys k ys →
        (keys k (unionCols w (lowMask w k) xs ys)).count κ ≤ 1 := by
      intro κ hκ
      obtain ⟨z, hz, -⟩ := h κ hκ
      rw [← length_withKey, hz, List.length_singleton]
    have hndx : (keys k xs).Nodup := by
      refine List.nodup_iff_count_le_one.mpr fun κ => ?_
      by_cases hmem : κ ∈ keys k xs
      · exact ((keys_sublist_left h0 hk hbx hby).count_le κ).trans (hone κ (.inl hmem))
      · rw [List.count_eq_zero.mpr hmem]
        exact Nat.zero_le 1
    have hndy : (keys k ys).Nodup := by
      refine List.nodup_iff_count_le_one.mpr fun κ => ?_
      by_cases hmem : κ ∈ keys k ys
      · exact ((keys_sublist_right h0 hk hbx hby).count_le κ).trans (hone κ (.inr hmem))
      · rw [List.count_eq_zero.mpr hmem]
        exact Nat.zero_le 1
    have hpair : KeysPairUp k xs ys := fun κ hκ hx hy =>
      negativesEndTogether_of_count h0 hk hbx hby hκ hkx hky hx hy (hone κ (.inl hx))
    exact ⟨hndx, hndy, hpair, (addsCounts_iff_of_keysPairUp h0 hk hbx hby
      (pairwise_lt_of_nodup hkx hndx) (pairwise_lt_of_nodup hky hndy) hpair).mp h⟩
  · rintro ⟨hndx, hndy, hpair, hzero⟩
    exact (addsCounts_iff_of_keysPairUp h0 hk hbx hby (pairwise_lt_of_nodup hkx hndx)
      (pairwise_lt_of_nodup hky hndy) hpair).mpr hzero

/-- The keys 1 and 2 with counts of four bits; no key is shared. -/
theorem unionCols_addsCounts_disjoint :
    (∀ x ∈ [0x13], InBits 32 x) ∧ AddsCounts 4 [0x13] [0x25] (unionCols 32 (lowMask 32 4) [0x13] [0x25]) := by
  have hbx : ∀ x ∈ [0x13], InBits 32 x := by decide
  refine ⟨hbx, (unionCols_addsCounts_iff (by decide) (by decide) (by decide) (by decide) hbx
    (by decide)).mpr ⟨by decide, by decide, fun κ _ hx hy => ?_, by decide⟩⟩
  rw [List.mem_singleton.mp hx] at hy
  exact absurd hy (by decide)

/-- The key 1 with the counts 3 and 5. -/
theorem unionCols_loses_counts :
    ¬ AddsCounts 4 [0x13] [0x15] (unionCols 32 (lowMask 32 4) [0x13] [0x15]) := by
  intro h
  have hpair : KeysPairUp 4 [0x13] [0x15] := fun _ _ _ _ =>
    negativesEndTogether_of_nonneg (by decide) (by decide)
  have hzero := (addsCounts_iff_of_keysPairUp (by decide) (by decide) (by decide) (by decide)
    (by decide) (by decide) hpair).mp h
  exact absurd (hzero 0x13 (by decide) 0x15 (by decide) (by decide)) (by decide)

end Datacl
