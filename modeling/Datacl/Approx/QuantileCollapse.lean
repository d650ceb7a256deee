import Datacl.Approx.Quantile
import Datacl.Lib.RankSketch

/-!
# `Collapse` as systematic sampling

The merged buffers stand for a sorted sequence in which each element is repeated as often as its
weight says. The picking loop takes the elements of that sequence at the positions `offSet`,
`offSet + outWeight`, ..., so the number of picked elements below a threshold is a function of
the weight below it.
-/

namespace Datacl
open RankSketch (below Threshold slots slots_mono lt_slots_iff two_mul_slots_bounds)

/-- The multiset a list of weighted elements stands for. -/
def weighted (l : List (Int × Nat)) : Multiset Int :=
  (l.map (fun e => Multiset.replicate e.2 e.1)).sum

@[simp] lemma weighted_nil : weighted [] = 0 := rfl

@[simp] lemma weighted_cons (e : Int × Nat) (l : List (Int × Nat)) :
    weighted (e :: l) = Multiset.replicate e.2 e.1 + weighted l := rfl

lemma weighted_append (l m : List (Int × Nat)) :
    weighted (l ++ m) = weighted l + weighted m := by simp [weighted]

lemma weighted_perm {l m : List (Int × Nat)} (h : l.Perm m) : weighted l = weighted m :=
  (h.map _).sum_eq

lemma weighted_map (w : Nat) (l : List Int) :
    weighted (l.map (fun a => (a, w))) = w • (l : Multiset Int) := by
  induction l with
  | nil => simp
  | cons a l ih =>
    rw [List.map_cons, weighted_cons, ih, ← Multiset.cons_coe, ← Multiset.singleton_add, nsmul_add,
      Multiset.nsmul_singleton]

lemma below_replicate (p : Int → Bool) (w : Nat) (v : Int) :
    below p (Multiset.replicate w v) = if p v then w else 0 := by
  rw [← Multiset.coe_replicate, RankSketch.below_coe, List.countP_replicate]

/-- Nothing of a sorted list is below a threshold its first element is not below. -/
lemma below_weighted_eq_zero {p : Int → Bool} (hp : Threshold p) {v : Int} (hv : ¬ p v)
    {l : List (Int × Nat)} (hl : ∀ e ∈ l, v ≤ e.1) : below p (weighted l) = 0 := by
  induction l with
  | nil => rfl
  | cons e l ih =>
    rw [List.forall_mem_cons] at hl
    have he : ¬ p e.1 := fun h => hv (hp v e.1 hl.1 h)
    rw [weighted_cons, RankSketch.below_add, below_replicate, if_neg he, ih hl.2]

/-! ### The picking loop -/

lemma emitWhile_eq {offSet outWeight kk : Nat} (hoff : offSet ≤ outWeight) (hw : 0 < outWeight)
    (fuel jj : Nat) (hjj : jj ≤ slots offSet outWeight kk)
    (hfuel : slots offSet outWeight kk ≤ jj + fuel) :
    emitWhile offSet outWeight kk fuel jj = slots offSet outWeight kk := by
  induction fuel generalizing jj with
  | zero =>
    rw [emitWhile]
    omega
  | succ fuel ih =>
    rw [emitWhile]
    split
    next hle =>
      have hlt := (lt_slots_iff hoff hw jj).mpr hle
      exact ih (jj + 1) hlt (by omega)
    next hnle =>
      have hge := mt (lt_slots_iff hoff hw jj).mp hnle
      omega

lemma slots_le_succ {offSet outWeight : Nat} (hw : 0 < outWeight) (kk : Nat) :
    slots offSet outWeight kk ≤ kk + 1 := by
  apply Nat.div_le_of_le_mul
  calc kk + (outWeight - offSet) ≤ outWeight * kk + outWeight :=
        Nat.add_le_add (Nat.le_mul_of_pos_left kk hw) (Nat.sub_le _ _)
    _ = outWeight * (kk + 1) := (Nat.mul_succ _ _).symm

section Pick

variable {offSet outWeight : Nat} (hoff : offSet ≤ outWeight) (hw : 0 < outWeight)

include hoff hw

lemma pickLoop_cons (v : Int) (w : Nat) (rest : List (Int × Nat)) (kk : Nat) :
    pickLoop offSet outWeight ((v, w) :: rest) kk (slots offSet outWeight kk) =
      List.replicate (slots offSet outWeight (kk + w) - slots offSet outWeight kk) v ++
        pickLoop offSet outWeight rest (kk + w) (slots offSet outWeight (kk + w)) := by
  have hemit := emitWhile_eq hoff hw (kk + w + 1) (slots offSet outWeight kk)
    (slots_mono _ _ (Nat.le_add_right kk w)) ((slots_le_succ hw _).trans (Nat.le_add_left _ _))
  simp only [pickLoop, hemit]

lemma mem_pickLoop {a : Int} (l : List (Int × Nat)) (kk : Nat)
    (h : a ∈ pickLoop offSet outWeight l kk (slots offSet outWeight kk)) : a ∈ l.map Prod.fst := by
  induction l generalizing kk with
  | nil => simp [pickLoop] at h
  | cons e rest ih =>
    obtain ⟨v, w⟩ := e
    rw [pickLoop_cons hoff hw, List.mem_append] at h
    rw [List.map_cons, List.mem_cons]
    rcases h with h | h
    · exact .inl (List.eq_of_mem_replicate h)
    · exact .inr (ih _ h)

lemma pickLoop_sorted {l : List (Int × Nat)} (hl : l.Pairwise (fun d e => d.1 ≤ e.1)) (kk : Nat) :
    (pickLoop offSet outWeight l kk (slots offSet outWeight kk)).Pairwise (· ≤ ·) := by
  induction l generalizing kk with
  | nil => exact List.Pairwise.nil
  | cons e rest ih =>
    obtain ⟨v, w⟩ := e
    obtain ⟨hv, hrest⟩ := List.pairwise_cons.mp hl
    rw [pickLoop_cons hoff hw, List.pairwise_append]
    refine ⟨List.pairwise_replicate.mpr (.inr le_rfl), ih hrest _, ?_⟩
    intro a ha c hc
    obtain ⟨d, hd, rfl⟩ := List.mem_map.mp (mem_pickLoop hoff hw rest _ hc)
    rw [List.eq_of_mem_replicate ha]
    exact hv d hd

/-- The picks below a threshold are the sampling positions within the weight below it. -/
lemma countP_pickLoop {p : Int → Bool} (hp : Threshold p) {l : List (Int × Nat)}
    (hl : l.Pairwise (fun d e => d.1 ≤ e.1)) (kk : Nat) :
    (pickLoop offSet outWeight l kk (slots offSet outWeight kk)).countP p =
      slots offSet outWeight (kk + below p (weighted l)) - slots offSet outWeight kk := by
  induction l generalizing kk with
  | nil => simp [pickLoop]
  | cons e rest ih =>
    obtain ⟨v, w⟩ := e
    obtain ⟨hv, hrest⟩ := List.pairwise_cons.mp hl
    rw [pickLoop_cons hoff hw, List.countP_append, List.countP_replicate, ih hrest, weighted_cons,
      RankSketch.below_add, below_replicate]
    by_cases hpv : p v
    · have h1 := slots_mono offSet outWeight (Nat.le_add_right kk w)
      have h2 := slots_mono offSet outWeight
        (Nat.le_add_right (kk + w) (below p (weighted rest)))
      rw [if_pos hpv, if_pos hpv]
      simp only [← add_assoc]
      omega
    · rw [if_neg hpv, if_neg hpv, below_weighted_eq_zero hp hpv hv]
      simp

end Pick

/-! ### Merging -/

lemma mergeWeighted_perm (w1 w2 : Nat) (as bs : List Int) :
    (mergeWeighted w1 w2 as bs).Perm
      (as.map (fun a => (a, w1)) ++ bs.map (fun b => (b, w2))) := by
  fun_induction mergeWeighted w1 w2 as bs with
  | case1 a as b bs hle ih => exact ih.cons _
  | case2 a as b bs hnle ih => exact (ih.cons _).trans List.perm_middle.symm
  | case3 a as ih => exact ih.cons _
  | case4 b bs ih => exact ih.cons _
  | case5 => exact List.Perm.nil

lemma mem_mergeWeighted {w1 w2 : Nat} {as bs : List Int} {e : Int × Nat}
    (h : e ∈ mergeWeighted w1 w2 as bs) : e.1 ∈ as ∨ e.1 ∈ bs := by
  have hmem := (mergeWeighted_perm w1 w2 as bs).mem_iff.mp h
  rw [List.mem_append, List.mem_map, List.mem_map] at hmem
  rcases hmem with ⟨a, ha, rfl⟩ | ⟨b, hb, rfl⟩
  · exact .inl ha
  · exact .inr hb

lemma mergeWeighted_sorted {w1 w2 : Nat} {as bs : List Int} (ha : as.Pairwise (· ≤ ·))
    (hb : bs.Pairwise (· ≤ ·)) :
    (mergeWeighted w1 w2 as bs).Pairwise (fun d e => d.1 ≤ e.1) := by
  fun_induction mergeWeighted w1 w2 as bs with
  | case1 a as b bs hle ih =>
    obtain ⟨hmin, has⟩ := List.pairwise_cons.mp ha
    refine List.pairwise_cons.mpr ⟨fun e he => ?_, ih has hb⟩
    rcases mem_mergeWeighted he with h | h
    · exact hmin _ h
    · rcases List.mem_cons.mp h with h | h
      · exact hle.trans_eq h.symm
      · exact hle.trans ((List.pairwise_cons.mp hb).1 _ h)
  | case2 a as b bs hnle ih =>
    obtain ⟨hmin, hbs⟩ := List.pairwise_cons.mp hb
    have hlt : b ≤ a := (not_le.mp hnle).le
    refine List.pairwise_cons.mpr ⟨fun e he => ?_, ih ha hbs⟩
    rcases mem_mergeWeighted he with h | h
    · rcases List.mem_cons.mp h with h | h
      · exact hlt.trans_eq h.symm
      · exact hlt.trans ((List.pairwise_cons.mp ha).1 _ h)
    · exact hmin _ h
  | case3 a as ih =>
    obtain ⟨hmin, has⟩ := List.pairwise_cons.mp ha
    refine List.pairwise_cons.mpr ⟨fun e he => ?_, ih has hb⟩
    exact hmin _ ((mem_mergeWeighted he).resolve_right (by simp))
  | case4 b bs ih =>
    obtain ⟨hmin, hbs⟩ := List.pairwise_cons.mp hb
    refine List.pairwise_cons.mpr ⟨fun e he => ?_, ih ha hbs⟩
    exact hmin _ ((mem_mergeWeighted he).resolve_left (by simp))
  | case5 => exact List.Pairwise.nil

lemma weighted_mergeWeighted (w1 w2 : Nat) (as bs : List Int) :
    weighted (mergeWeighted w1 w2 as bs) =
      w1 • (as : Multiset Int) + w2 • (bs : Multiset Int) := by
  rw [weighted_perm (mergeWeighted_perm w1 w2 as bs), weighted_append, weighted_map, weighted_map]

/-! ### Two buffers of equal weight -/

/-- The elements `Collapse` picks from two buffers of weight `w`. -/
def picked (w : Nat) (as bs : List Int) : List Int :=
  pickLoop ((w + w) / 2) (w + w) (mergeWeighted w w as bs) 0 0

section Picked

variable {w k : Nat} {as bs : List Int} (hw : 0 < w)

include hw

lemma picked_eq (as bs : List Int) :
    picked w as bs = pickLoop w (w + w) (mergeWeighted w w as bs) 0 (slots w (w + w) 0) := by
  have hoff : (w + w) / 2 = w := by omega
  have hzero : slots w (w + w) 0 = 0 := Nat.div_eq_of_lt (by omega)
  rw [picked, hoff, hzero]

lemma mem_picked {a : Int} (h : a ∈ picked w as bs) : a ∈ as ∨ a ∈ bs := by
  rw [picked_eq hw] at h
  obtain ⟨e, he, rfl⟩ := List.mem_map.mp (mem_pickLoop (by omega) (by omega) _ _ h)
  exact mem_mergeWeighted he

variable (ha : as.Pairwise (· ≤ ·)) (hb : bs.Pairwise (· ≤ ·))

include ha hb

lemma picked_sorted : (picked w as bs).Pairwise (· ≤ ·) := by
  rw [picked_eq hw]
  exact pickLoop_sorted (by omega) (by omega) (mergeWeighted_sorted ha hb) _

lemma countP_picked {p : Int → Bool} (hp : Threshold p) :
    (picked w as bs).countP p = slots w (w + w) (w * (as.countP p + bs.countP p)) := by
  have hzero : slots w (w + w) 0 = 0 := Nat.div_eq_of_lt (by omega)
  rw [picked_eq hw, countP_pickLoop (by omega) (by omega) hp (mergeWeighted_sorted ha hb),
    weighted_mergeWeighted, hzero]
  simp [Nat.mul_add]

lemma length_picked (hlen : as.length + bs.length = 2 * k) : (picked w as bs).length = k := by
  have hall : Threshold (fun _ : Int => true) := fun _ _ _ _ => rfl
  have hcount := countP_picked hw ha hb hall
  have hbounds := two_mul_slots_bounds hw (2 * k)
  simp only [List.countP_true, hlen] at hcount
  rw [← hcount] at hbounds
  have hle : w * (2 * k) ≤ w * (2 * (picked w as bs).length) := by
    calc w * (2 * k) ≤ (w + w) * (picked w as bs).length := hbounds.1
      _ = w * (2 * (picked w as bs).length) := by ring
  have hge : w * (2 * (picked w as bs).length) ≤ w * (2 * k + 1) := by
    calc w * (2 * (picked w as bs).length) = (w + w) * (picked w as bs).length := by ring
      _ ≤ w * (2 * k) + w := hbounds.2
      _ = w * (2 * k + 1) := (Nat.mul_succ _ _).symm
  have h1 := Nat.le_of_mul_le_mul_left hle hw
  have h2 := Nat.le_of_mul_le_mul_left hge hw
  omega

/-- The picked elements at double weight raise a rank by at most one element's weight. -/
lemma below_picked {p : Int → Bool} (hp : Threshold p) :
    below p (w • (as : Multiset Int) + w • (bs : Multiset Int)) ≤
        below p ((w + w) • (picked w as bs : Multiset Int)) ∧
      below p ((w + w) • (picked w as bs : Multiset Int)) ≤
        below p (w • (as : Multiset Int) + w • (bs : Multiset Int)) + w := by
  have hbounds := two_mul_slots_bounds hw (as.countP p + bs.countP p)
  rw [← countP_picked hw ha hb hp] at hbounds
  simp only [RankSketch.below_add, RankSketch.below_nsmul, RankSketch.below_coe, ← Nat.mul_add]
  exact hbounds

end Picked

lemma collapse_eq {buf1 buf2 : Buffer} {w k : Nat} (hw : 0 < w) (h1 : buf1.weight = w)
    (h2 : buf2.weight = w) (hs1 : buf1.elems.Pairwise (· ≤ ·)) (hs2 : buf2.elems.Pairwise (· ≤ ·))
    (hl1 : buf1.elems.length = k) (hl2 : buf2.elems.length = k) :
    collapse buf1 buf2 = (⟨w + w, picked w buf1.elems buf2.elems⟩, ⟨0, buf2.elems⟩) := by
  have hlen : (picked w buf1.elems buf2.elems).length = k :=
    length_picked hw hs1 hs2 (by omega)
  have hdrop : buf1.elems.drop (picked w buf1.elems buf2.elems).length = [] :=
    List.drop_eq_nil_of_le (by omega)
  simp only [collapse, h1, h2, ← picked.eq_1, hdrop, List.append_nil]

end Datacl
