import Datacl.Approx.QuantileCollapse
import Datacl.Lib.RankPick

/-!
# Which elements `Collapse` keeps

For arbitrary weights the picking loop is a scan by rank: slot `j` of `buf1` receives the
element at position `offSet + j*outWeight` of the sorted sequence the two buffers stand for.
-/

namespace Datacl
open RankPick (unroll handOut getElem?_handOut length_handOut)
open RankSketch (slots lt_slots_iff)

/-- The sorted sequence in which each element is repeated as often as its weight says. -/
def sortedElements (l : List (Int × Nat)) : List Int := (unroll l).insertionSort (· ≤ ·)

def Buffer.weightedElems (buf : Buffer) : List (Int × Nat) :=
  buf.elems.map (fun a => (a, buf.weight))

/-- The values the picking loop writes to `buf1[0]`, `buf1[1]`, ... -/
def keptElems (w1 w2 : Nat) (as bs : List Int) : List Int :=
  pickLoop ((w1 + w2) / 2) (w1 + w2) (mergeWeighted w1 w2 as bs) 0 0

/-- `Collapse` of the rows `bufidx1` and `bufidx2` with its input checks. The result holds the rows
and how many slots of `buf1` the picking loop wrote. `none` is the error exit; it also stands
for the overflow of `int outWeight`. -/
def collapseRows (bufs : List Buffer) (bufidx1 bufidx2 : Nat) : Option (List Buffer × Nat) := do
  let buf1 ← bufs[bufidx1]?
  let buf2 ← bufs[bufidx2]?
  if buf1.weight = 0 ∨ buf2.weight = 0 then none
  else if 2 ^ 31 ≤ buf1.weight + buf2.weight then none
  else
    let (c1, c2) := collapse buf1 buf2
    some ((bufs.set bufidx1 c1).set bufidx2 c2,
      (keptElems buf1.weight buf2.weight buf1.elems buf2.elems).length)

lemma sortedElements_sorted (l : List (Int × Nat)) : (sortedElements l).Pairwise (· ≤ ·) :=
  List.pairwise_insertionSort _ _

lemma sortedElements_eq {l m : List (Int × Nat)} (hl : l.Pairwise (fun d e => d.1 ≤ e.1))
    (h : l.Perm m) : unroll l = sortedElements m := by
  have hperm : (unroll l).Perm (sortedElements m) :=
    (RankPick.unroll_perm h).trans (List.perm_insertionSort _ _).symm
  apply hperm.eq_of_pairwise ?_ (RankPick.unroll_sorted hl) (sortedElements_sorted m)
  intro a b _ _ hab hba
  exact le_antisymm hab hba

section Pick

variable {offSet outWeight : Nat} (hoff : offSet ≤ outWeight) (hw : 0 < outWeight)

include hoff hw

/-- The picking loop hands each slot the element at its position. -/
lemma pickLoop_eq_handOut (l : List (Int × Nat)) (kk : Nat) :
    pickLoop offSet outWeight l kk (slots offSet outWeight kk) =
      handOut (slots offSet outWeight) l kk := by
  induction l generalizing kk with
  | nil => rfl
  | cons e rest ih =>
    obtain ⟨v, w⟩ := e
    rw [pickLoop_cons hoff hw, handOut, ih]

end Pick

lemma length_unroll_mergeWeighted {k : Nat} {as bs : List Int} (w1 w2 : Nat)
    (ha : as.length = k) (hb : bs.length = k) :
    (unroll (mergeWeighted w1 w2 as bs)).length = k * (w1 + w2) := by
  rw [(RankPick.unroll_perm (mergeWeighted_perm w1 w2 as bs)).length_eq, RankPick.length_unroll,
    List.map_append, List.map_map, List.map_map, List.sum_append, Nat.mul_add]
  simp [Function.comp_def, ha, hb]

section Kept

variable {w1 w2 : Nat} (hw1 : 0 < w1) (hw2 : 0 < w2)

include hw1 hw2

lemma slots_zero : slots ((w1 + w2) / 2) (w1 + w2) 0 = 0 := Nat.div_eq_of_lt (by omega)

lemma lt_slots_weights (j r : Nat) :
    j < slots ((w1 + w2) / 2) (w1 + w2) r ↔ True ∧ (w1 + w2) / 2 + j * (w1 + w2) ≤ r := by
  rw [lt_slots_iff (by omega) (by omega), true_and]

lemma keptElems_eq_handOut (as bs : List Int) :
    keptElems w1 w2 as bs =
      handOut (slots ((w1 + w2) / 2) (w1 + w2)) (mergeWeighted w1 w2 as bs) 0 := by
  have hpick := pickLoop_eq_handOut (by omega : (w1 + w2) / 2 ≤ w1 + w2) (by omega)
    (mergeWeighted w1 w2 as bs) 0
  rwa [slots_zero hw1 hw2] at hpick

/-- Exactly `k` slots are written. -/
lemma length_keptElems {k : Nat} {as bs : List Int} (ha : as.length = k) (hb : bs.length = k) :
    (keptElems w1 w2 as bs).length = k := by
  have hreached := lt_slots_weights hw1 hw2
  rw [keptElems_eq_handOut hw1 hw2, length_handOut hreached, slots_zero hw1 hw2, Nat.zero_add,
    Nat.sub_zero, length_unroll_mergeWeighted w1 w2 ha hb]
  apply Nat.le_antisymm
  · by_contra hlt
    have hk := ((hreached k _).mp (not_le.mp hlt)).2
    omega
  · by_contra hlt
    have hk : ¬ k - 1 < slots ((w1 + w2) / 2) (w1 + w2) (k * (w1 + w2)) := by omega
    apply hk
    rw [hreached]
    have hsplit : (k - 1) * (w1 + w2) + (w1 + w2) = k * (w1 + w2) := by
      rw [← Nat.succ_mul, Nat.succ_eq_add_one, Nat.sub_add_cancel (by omega)]
    exact ⟨trivial, by omega⟩

variable {as bs : List Int} (hsa : as.Pairwise (· ≤ ·)) (hsb : bs.Pairwise (· ≤ ·))

include hsa hsb

lemma keptElems_sorted : (keptElems w1 w2 as bs).Pairwise (· ≤ ·) := by
  have hs := pickLoop_sorted (by omega : (w1 + w2) / 2 ≤ w1 + w2) (by omega)
    (@mergeWeighted_sorted w1 w2 as bs hsa hsb) 0
  rwa [slots_zero hw1 hw2] at hs

/-- Slot `j` receives the element at position `(w1+w2)/2 + j*(w1+w2)`, counted from 1. -/
lemma getElem?_keptElems (j : Nat) :
    (keptElems w1 w2 as bs)[j]? =
      (sortedElements (as.map (fun a => (a, w1)) ++ bs.map (fun b => (b, w2))))[
        (w1 + w2) / 2 + j * (w1 + w2) - 1]? := by
  rw [keptElems_eq_handOut hw1 hw2, getElem?_handOut (lt_slots_weights hw1 hw2) _ _ _ trivial,
    slots_zero hw1 hw2, Nat.zero_add, Nat.sub_zero,
    sortedElements_eq (mergeWeighted_sorted hsa hsb) (mergeWeighted_perm w1 w2 as bs)]

end Kept

/-- `Collapse` of two sorted buffers of `k` elements leaves in `buf1` the elements at positions
`(w1+w2)/2 + j*(w1+w2)`, counted from 1, and writes nothing beyond index `k`. -/
theorem collapse_keeps_positions (bufs : List Buffer) (bufidx1 bufidx2 : Nat)
    (buf1 buf2 : Buffer) {k : Nat} (hidx : bufidx1 ≠ bufidx2) (h1 : bufs[bufidx1]? = some buf1)
    (h2 : bufs[bufidx2]? = some buf2) (hl1 : buf1.elems.length = k) (hl2 : buf2.elems.length = k)
    (hs1 : buf1.elems.Pairwise (· ≤ ·)) (hs2 : buf2.elems.Pairwise (· ≤ ·))
    (hw1 : 1 ≤ buf1.weight) (hw2 : 1 ≤ buf2.weight)
    (hsum : buf1.weight + buf2.weight < 2 ^ 31) :
    ∃ bufs' c1 c2 written, collapseRows bufs bufidx1 bufidx2 = some (bufs', written) ∧
      bufs'[bufidx1]? = some c1 ∧ bufs'[bufidx2]? = some c2 ∧
      (∀ i, i ≠ bufidx1 → i ≠ bufidx2 → bufs'[i]? = bufs[i]?) ∧
      c1.weight = buf1.weight + buf2.weight ∧ c2.weight = 0 ∧ written = k ∧
      c1.elems.length = k ∧ c1.elems.Pairwise (· ≤ ·) ∧
      ∀ j < k, c1.elems[j]? = (sortedElements (buf1.weightedElems ++ buf2.weightedElems))[
        (buf1.weight + buf2.weight) / 2 + j * (buf1.weight + buf2.weight) - 1]? := by
  have hlen := length_keptElems hw1 hw2 hl1 hl2
  have helems : (collapse buf1 buf2).1.elems =
      keptElems buf1.weight buf2.weight buf1.elems buf2.elems := by
    change keptElems _ _ _ _ ++ buf1.elems.drop (keptElems _ _ _ _).length = _
    rw [hlen, List.drop_eq_nil_of_le hl1.le, List.append_nil]
  have hlt1 := (List.getElem?_eq_some_iff.mp h1).1
  have hlt2 := (List.getElem?_eq_some_iff.mp h2).1
  refine ⟨(bufs.set bufidx1 (collapse buf1 buf2).1).set bufidx2 (collapse buf1 buf2).2,
    (collapse buf1 buf2).1, (collapse buf1 buf2).2, _, ?_, ?_, ?_, ?_, rfl, rfl, hlen, ?_, ?_, ?_⟩
  · have hpos : ¬ (buf1.weight = 0 ∨ buf2.weight = 0) := by omega
    simp only [collapseRows, h1, h2, Option.bind_eq_bind, Option.bind_some, if_neg hpos,
      if_neg (not_le.mpr hsum)]
  · rw [List.getElem?_set_ne hidx.symm, List.getElem?_set_self hlt1]
  · rw [List.getElem?_set_self (by rwa [List.length_set])]
  · intro i hi1 hi2
    rw [List.getElem?_set_ne hi2.symm, List.getElem?_set_ne hi1.symm]
  · rw [helems, hlen]
  · rw [helems]
    exact keptElems_sorted hw1 hw2 hs1 hs2
  · intro j _
    rw [helems]
    exact getElem?_keptElems hw1 hw2 hs1 hs2 j

/-- The buffers of the source's comment: weights 1 and 2, `k = 5`. -/
theorem collapse_keeps_positions_example :
    ∃ bufs' c1 c2 written,
      collapseRows [⟨1, [1, 3, 5, 7, 9]⟩, ⟨2, [2, 4, 6, 8, 10]⟩] 0 1 = some (bufs', written) ∧
      bufs'[0]? = some c1 ∧ bufs'[1]? = some c2 ∧
      (∀ i, i ≠ 0 → i ≠ 1 →
        bufs'[i]? = [(⟨1, [1, 3, 5, 7, 9]⟩ : Buffer), ⟨2, [2, 4, 6, 8, 10]⟩][i]?) ∧
      c1.weight = 1 + 2 ∧ c2.weight = 0 ∧ written = 5 ∧
      c1.elems.length = 5 ∧ c1.elems.Pairwise (· ≤ ·) ∧
      ∀ j < 5, c1.elems[j]? = (sortedElements
        ((⟨1, [1, 3, 5, 7, 9]⟩ : Buffer).weightedElems ++
          (⟨2, [2, 4, 6, 8, 10]⟩ : Buffer).weightedElems))[(1 + 2) / 2 + j * (1 + 2) - 1]? :=
  collapse_keeps_positions _ 0 1 ⟨1, [1, 3, 5, 7, 9]⟩ ⟨2, [2, 4, 6, 8, 10]⟩ (by decide)
    rfl rfl rfl rfl (by decide) (by decide) (by decide) (by decide) (by decide)

end Datacl
