import Datacl.Order.SetOps

/-!
# When the union of sorted columns is sorted

The union keeps all values of both columns. It is out of order as soon as a non-negative value of
one column meets a negative value of the other, and it keeps the repetitions within a column.
-/

namespace Datacl

variable {w : Nat} {xs ys : List Int}

/-! ### Negative values -/

lemma negativesEndTogether_nil : NegativesEndTogether [] ys :=
  fun _ _ _ _ => ⟨fun _ _ hx => absurd hx List.not_mem_nil, fun h => absurd h (Nat.not_lt_zero _)⟩

lemma negativesEndTogether_of_nonneg (hxs : ∀ x ∈ xs, 0 ≤ x) (hys : ∀ y ∈ ys, 0 ≤ y) :
    NegativesEndTogether xs ys := by
  intro m hm _ _
  have hx : xs.count m = 0 := List.count_eq_zero.mpr fun h => absurd (hxs m h) (not_le.mpr hm)
  have hy : ys.count m = 0 := List.count_eq_zero.mpr fun h => absurd (hys m h) (not_le.mpr hm)
  rw [hx, hy]
  exact ⟨fun h => absurd h (lt_irrefl 0), fun h => absurd h (lt_irrefl 0)⟩

lemma NegativesEndTogether.cons_left {x y : Int} (h : NegativesEndTogether xs (y :: ys))
    (hys : (y :: ys).Pairwise (· ≤ ·)) (hsign : x < 0 → y < 0) (hlt : x < y) :
    NegativesEndTogether (x :: xs) (y :: ys) := by
  intro m hm hbx hby
  have hxm : x ≠ m := by
    rintro rfl
    have := hby y List.mem_cons_self (hsign hm)
    omega
  obtain ⟨h1, h2⟩ := h m hm (fun z hz => hbx z (List.mem_cons_of_mem x hz)) hby
  rw [List.count_cons_of_ne hxm]
  refine ⟨fun hc z hz => ?_, h2⟩
  rcases List.mem_cons.mp hz with rfl | hz
  · have hmem : m ∈ y :: ys := List.count_pos_iff.mp (by omega)
    have hym : y ≤ m := by
      rcases List.mem_cons.mp hmem with rfl | hmem
      · exact le_rfl
      · exact List.rel_of_pairwise_cons hys hmem
    omega
  · exact h1 hc z hz

lemma NegativesEndTogether.cons_both {x : Int} (h : NegativesEndTogether xs ys)
    (hxs : (x :: xs).Pairwise (· ≤ ·)) (hys : (x :: ys).Pairwise (· ≤ ·)) :
    NegativesEndTogether (x :: xs) (x :: ys) := by
  intro m hm hbx hby
  obtain ⟨h1, h2⟩ := h m hm (fun z hz => hbx z (List.mem_cons_of_mem x hz))
    (fun z hz => hby z (List.mem_cons_of_mem x hz))
  have hlow : ∀ {zs : List Int}, (x :: zs).Pairwise (· ≤ ·) → 0 < zs.count m → x < 0 :=
    fun hzs hc => (List.rel_of_pairwise_cons hzs (List.count_pos_iff.mp hc)).trans_lt hm
  simp only [List.count_cons, add_lt_add_iff_right]
  constructor
  · intro hc z hz
    rcases List.mem_cons.mp hz with rfl | hz
    · exact hlow hys (by omega)
    · exact h1 hc z hz
  · intro hc z hz
    rcases List.mem_cons.mp hz with rfl | hz
    · exact hlow hxs (by omega)
    · exact h2 hc z hz

/-! ### All values are kept -/

lemma sublist_unionCols_left (w : Nat) (xs ys : List Int) : xs.Sublist (unionCols w 0 xs ys) := by
  fun_induction unionCols w 0 xs ys with
  | case1 ys => exact List.nil_sublist _
  | case2 x xs => exact List.Sublist.refl _
  | case3 x xs y ys _ ih => exact ih.cons_cons x
  | case4 x xs y ys _ _ ih => exact ih.cons y
  | case5 x xs y ys _ _ ih => exact ih.cons_cons x

lemma sublist_unionCols_right (hw : 0 < w) (hbx : ∀ x ∈ xs, InBits w x)
    (hby : ∀ y ∈ ys, InBits w y) : ys.Sublist (unionCols w 0 xs ys) := by
  fun_induction unionCols w 0 xs ys with
  | case1 ys => exact List.Sublist.refl _
  | case2 x xs => exact List.nil_sublist _
  | case3 x xs y ys _ ih => exact (ih (List.forall_mem_cons.mp hbx).2 hby).cons x
  | case4 x xs y ys _ _ ih => exact (ih hbx (List.forall_mem_cons.mp hby).2).cons_cons y
  | case5 x xs y ys hle hge ih =>
    rw [List.forall_mem_cons] at hbx hby
    obtain rfl : x = y := effVal_inj hw hbx.1 hby.1 hle hge
    exact (ih hbx.2 hby.2).cons_cons x

lemma mem_unionCols_iff (hw : 0 < w) (hbx : ∀ x ∈ xs, InBits w x) (hby : ∀ y ∈ ys, InBits w y)
    (z : Int) : z ∈ unionCols w 0 xs ys ↔ z ∈ xs ∨ z ∈ ys := by
  refine ⟨mem_unionCols, ?_⟩
  rintro (hz | hz)
  · exact (sublist_unionCols_left w xs ys).subset hz
  · exact (sublist_unionCols_right hw hbx hby).subset hz

/-! ### The order -/

/-- If the union is in order, the negative values end together. -/
lemma negativesEndTogether_of_pairwise (hw : 0 < w) (hxs : xs.Pairwise (· ≤ ·))
    (hys : ys.Pairwise (· ≤ ·)) (hbx : ∀ x ∈ xs, InBits w x) (hby : ∀ y ∈ ys, InBits w y)
    (h : (unionCols w 0 xs ys).Pairwise (· ≤ ·)) : NegativesEndTogether xs ys := by
  fun_induction unionCols w 0 xs ys with
  | case1 ys => exact negativesEndTogether_nil
  | case2 x xs => exact negativesEndTogether_nil.symm
  | case3 x xs y ys hlt ih =>
    rw [List.forall_mem_cons] at hbx
    have hxy : x ≤ y := List.rel_of_pairwise_cons h
      ((mem_unionCols_iff hw hbx.2 hby y).mpr (.inr List.mem_cons_self))
    have hy : InBits w y := hby y List.mem_cons_self
    have hsign : x < 0 ↔ y < 0 := by
      refine ⟨fun hx0 => ?_, fun hy0 => by omega⟩
      by_contra hy0
      exact BitVec.lt_asymm hlt (effVal_lt_of_sign hw hy hbx.1 (not_lt.mp hy0) hx0)
    have hxy' : x < y := (effVal_lt_iff hw hbx.1 hy hsign).mp hlt
    exact (ih hxs.of_cons hys hbx.2 hby h.of_cons).cons_left hys hsign.mp hxy'
  | case4 x xs y ys _ hlt ih =>
    rw [List.forall_mem_cons] at hby
    have hyx : y ≤ x := List.rel_of_pairwise_cons h
      ((mem_unionCols_iff hw hbx hby.2 x).mpr (.inl List.mem_cons_self))
    have hx : InBits w x := hbx x List.mem_cons_self
    have hsign : y < 0 ↔ x < 0 := by
      refine ⟨fun hy0 => ?_, fun hx0 => by omega⟩
      by_contra hx0
      exact BitVec.lt_asymm hlt (effVal_lt_of_sign hw hx hby.1 (not_lt.mp hx0) hy0)
    have hyx' : y < x := (effVal_lt_iff hw hby.1 hx hsign).mp hlt
    exact ((ih hxs hys.of_cons hbx hby.2 h.of_cons).symm.cons_left hxs hsign.mp hyx').symm
  | case5 x xs y ys hle hge ih =>
    rw [List.forall_mem_cons] at hbx hby
    obtain rfl : x = y := effVal_inj hw hbx.1 hby.1 hle hge
    exact (ih hxs.of_cons hys.of_cons hbx.2 hby.2 h.of_cons).cons_both hxs hys

/-- `zs` is ascending, has no adjacent duplicates, and holds the values of `xs` and of `ys`. -/
structure SortedUnion (xs ys zs : List Int) : Prop where
  ascending : zs.Pairwise (· ≤ ·)
  adjacent : zs.IsChain (· ≠ ·)
  mem : ∀ z, z ∈ zs ↔ z ∈ xs ∨ z ∈ ys

lemma pairwise_lt_of_adjacent {zs : List Int} (h : zs.Pairwise (· ≤ ·)) (hne : zs.IsChain (· ≠ ·)) :
    zs.Pairwise (· < ·) := by
  induction zs with
  | nil => exact List.Pairwise.nil
  | cons a zs ih =>
    have hrest := ih h.of_cons (List.isChain_of_isChain_cons hne)
    refine List.pairwise_cons.mpr ⟨fun b hb => ?_, hrest⟩
    cases zs with
    | nil => exact absurd hb List.not_mem_nil
    | cons c zs =>
      have hac : a < c := lt_of_le_of_ne (List.rel_of_pairwise_cons h List.mem_cons_self)
        (List.isChain_cons_cons.mp hne).1
      rcases List.mem_cons.mp hb with rfl | hb
      · exact hac
      · exact hac.trans (List.rel_of_pairwise_cons hrest hb)

lemma pairwise_lt_of_nodup {zs : List Int} (h : zs.Pairwise (· ≤ ·)) (hnd : zs.Nodup) :
    zs.Pairwise (· < ·) :=
  (h.and hnd).imp fun hab => lt_of_le_of_ne hab.1 hab.2

/-- The union of two ascending columns is what it should be exactly if neither column repeats a
value and their negative values end together. -/
theorem unionCols_sortedUnion_iff (hw : 0 < w) (hxs : xs.Pairwise (· ≤ ·))
    (hys : ys.Pairwise (· ≤ ·)) (hbx : ∀ x ∈ xs, InBits w x) (hby : ∀ y ∈ ys, InBits w y) :
    SortedUnion xs ys (unionCols w 0 xs ys) ↔ xs.Nodup ∧ ys.Nodup ∧ NegativesEndTogether xs ys := by
  constructor
  · rintro ⟨hasc, hadj, -⟩
    have hnodup : (unionCols w 0 xs ys).Nodup := (pairwise_lt_of_adjacent hasc hadj).imp ne_of_lt
    exact ⟨hnodup.sublist (sublist_unionCols_left w xs ys),
      hnodup.sublist (sublist_unionCols_right hw hbx hby),
      negativesEndTogether_of_pairwise hw hxs hys hbx hby hasc⟩
  · rintro ⟨hndx, hndy, hneg⟩
    have hlt : (unionCols w 0 xs ys).Pairwise (· < ·) := rel_unionCols hw (fun _ _ h => h) hxs hys
      (pairwise_lt_of_nodup hxs hndx) (pairwise_lt_of_nodup hys hndy) hbx hby hneg
    exact ⟨hlt.imp le_of_lt, (hlt.imp ne_of_lt).isChain, mem_unionCols_iff hw hbx hby⟩

/-- Two columns of 32 bits that share their only negative value. -/
theorem unionCols_sortedUnion_shared_negative :
    (∀ x ∈ [-3, 1, 4], InBits 32 x) ∧ SortedUnion [-3, 1, 4] [-3, 2] (unionCols 32 0 [-3, 1, 4] [-3, 2]) := by
  have hbx : ∀ x ∈ [-3, 1, 4], InBits 32 x := by decide
  refine ⟨hbx, (unionCols_sortedUnion_iff (by decide) (by decide) (by decide) hbx (by decide)).mpr
    ⟨by decide, by decide, fun m hm hx _ => ?_⟩⟩
  have hle : -3 ≤ m := hx (-3) (by decide) (by decide)
  obtain rfl | rfl | rfl : m = -3 ∨ m = -2 ∨ m = -1 := by omega
  · decide
  · decide
  · decide

/-- The negative value is larger than 0 as an unsigned integer. -/
theorem unionCols_not_sortedUnion : ¬ SortedUnion [-1] [0] (unionCols 32 0 [-1] [0]) := by
  rintro ⟨hasc, -, -⟩
  have heq : unionCols 32 0 [-1] [0] = [0, -1] := by
    have hlt : effVal 32 0 0 < effVal 32 0 (-1) := by decide
    rw [unionCols, if_neg (BitVec.lt_asymm hlt), if_pos hlt, unionCols]
  rw [heq] at hasc
  exact absurd hasc (by decide)

end Datacl
