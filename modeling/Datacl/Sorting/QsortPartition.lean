import Datacl.Sorting.Qsort
import Mathlib.Order.Lattice

/-!
# Cutting a piece in two

The walls cannot leave the piece: the last element is not less than the pivot and stops the left wall, the
first one stops the right wall. What the walls have passed stays on its side of the pivot.
-/

namespace Datacl

open Looping

section Items

variable {α : Type} {X X' : List α} {i j k : Int} {x : α}

lemma bounds_of_itemAt (h : itemAt X i = some x) : 0 ≤ i ∧ i < X.length := by
  rw [itemAt] at h
  split_ifs at h with hneg
  have hlt := (List.getElem?_eq_some_iff.mp h).1
  omega

lemma exists_itemAt (h0 : 0 ≤ i) (hlt : i < X.length) : ∃ x, itemAt X i = some x := by
  refine ⟨X[i.toNat], ?_⟩
  rw [itemAt, if_neg (by omega), List.getElem?_eq_getElem]

lemma itemAt_swapAt (hi : 0 ≤ i) (hj : 0 ≤ j) (h : Swapping.swapAt X i.toNat j.toNat = some X') (k : Int) :
    itemAt X' k = if k = j then itemAt X i else if k = i then itemAt X j else itemAt X k := by
  unfold itemAt
  rw [Swapping.getElem?_swapAt h, if_neg (show ¬ i < 0 by omega), if_neg (show ¬ j < 0 by omega)]
  by_cases hk : k < 0
  · rw [if_pos hk, if_pos hk, if_neg (by omega), if_neg (by omega)]
  · have hkj : k.toNat = j.toNat ↔ k = j := by omega
    have hki : k.toNat = i.toNat ↔ k = i := by omega
    simp only [if_neg hk, hkj, hki]

end Items

section

variable {size : Nat} {ι β : Type} [LinearOrder β] {key : Cell size → β} {lt : Cell size → Cell size → Bool}
  {arr arr' arr'' : SortArrays size ι} {lo hi mid a b c i : Int} {v : β} {x p : Cell size} {n : Nat}

/-! ### Rearranging a piece -/

/-- The elements between `lo` and `hi` have changed places, and their indexes with them. -/
structure Rearranged (lo hi : Int) (arr arr' : SortArrays size ι) : Prop where
  pairs : arr'.pairs.Perm arr.pairs
  length_pbase : arr'.pbase.length = arr.pbase.length
  length_srtOrdr : arr'.srtOrdr.length = arr.srtOrdr.length
  source : ∀ i x, itemAt arr'.pbase i = some x →
    ∃ j, itemAt arr.pbase j = some x ∧ (i = j ∨ lo ≤ i ∧ i ≤ hi ∧ lo ≤ j ∧ j ≤ hi)

lemma Rearranged.refl (lo hi : Int) (arr : SortArrays size ι) : Rearranged lo hi arr arr :=
  ⟨.refl _, rfl, rfl, fun i _ h => ⟨i, h, .inl rfl⟩⟩

lemma Rearranged.trans (h : Rearranged lo hi arr arr') (h' : Rearranged lo hi arr' arr'') :
    Rearranged lo hi arr arr'' where
  pairs := h'.pairs.trans h.pairs
  length_pbase := h'.length_pbase.trans h.length_pbase
  length_srtOrdr := h'.length_srtOrdr.trans h.length_srtOrdr
  source := by
    intro i x hx
    obtain ⟨j, hj, hij⟩ := h'.source i x hx
    obtain ⟨k, hk, hjk⟩ := h.source j x hj
    exact ⟨k, hk, by omega⟩

/-- What `SWAP` does within the array. -/
lemma swapItems_spec (hlen : arr.srtOrdr.length = arr.pbase.length) (ha0 : 0 ≤ a)
    (ha : a < arr.pbase.length) (hb0 : 0 ≤ b) (hb : b < arr.pbase.length) :
    ∃ arr', swapItems arr a b = some arr' ∧
      (∀ lo hi, lo ≤ a → a ≤ hi → lo ≤ b → b ≤ hi → Rearranged lo hi arr arr') ∧
      ∀ k, itemAt arr'.pbase k =
        if k = b then itemAt arr.pbase a else if k = a then itemAt arr.pbase b else itemAt arr.pbase k := by
  have hordr := Swapping.swapAt_eq (l := arr.srtOrdr) (i := a.toNat) (j := b.toNat) (by omega) (by omega)
  have hbase := Swapping.swapAt_eq (l := arr.pbase) (i := a.toNat) (j := b.toNat) (by omega) (by omega)
  have hitem := itemAt_swapAt ha0 hb0 hbase
  refine ⟨_, by rw [swapItems, if_neg (by omega), if_neg (by omega), hordr, hbase]; rfl, ?_, hitem⟩
  intro lo hi hloa hahi hlob hbhi
  refine ⟨Swapping.swapAt_perm (Swapping.swapAt_zip hbase hordr), Swapping.length_swapAt hbase,
    Swapping.length_swapAt hordr, ?_⟩
  intro i x hx
  rw [hitem] at hx
  split_ifs at hx with hib hia
  · exact ⟨a, hx, by omega⟩
  · exact ⟨b, hx, by omega⟩
  · exact ⟨i, hx, .inl rfl⟩

/-- The comparison, by keys. -/
def Compares (key : Cell size → β) (lt : Cell size → Cell size → Bool) : Prop :=
  ∀ x y, lt x y = decide (key x < key y)

lemma ltAt_eq (hlt : Compares key lt) {pbase : List (Cell size)} {x y : Cell size}
    (ha : itemAt pbase a = some x) (hb : itemAt pbase b = some y) :
    ltAt lt pbase a b = some (decide (key x < key y)) := by
  rw [ltAt, ha, hb, ← hlt]
  rfl

/-- Two elements in order, with the smaller one at `b`. -/
lemma swapIfLt_spec (hlt : Compares key lt) (hlen : arr.srtOrdr.length = arr.pbase.length) {x y : Cell size}
    (ha : itemAt arr.pbase a = some x) (hb : itemAt arr.pbase b = some y) (hab : a ≠ b) :
    ∃ arr' x' y', swapIfLt lt arr a b = some arr' ∧
      (∀ lo hi, lo ≤ a → a ≤ hi → lo ≤ b → b ≤ hi → Rearranged lo hi arr arr') ∧
      itemAt arr'.pbase a = some x' ∧ itemAt arr'.pbase b = some y' ∧ key y' ≤ key x' ∧
      (x' = x ∨ x' = y) ∧ ∀ k, k ≠ a → k ≠ b → itemAt arr'.pbase k = itemAt arr.pbase k := by
  have hcmp := ltAt_eq hlt ha hb
  by_cases hxy : key x < key y
  · obtain ⟨ha0, halt⟩ := bounds_of_itemAt ha
    obtain ⟨hb0, hblt⟩ := bounds_of_itemAt hb
    obtain ⟨arr', hswap, hre, hitem⟩ := swapItems_spec hlen ha0 halt hb0 hblt
    refine ⟨arr', y, x, ?_, hre, ?_, ?_, hxy.le, .inr rfl, ?_⟩
    · simp only [swapIfLt, hcmp, Option.bind_eq_bind, Option.bind_some, decide_eq_true hxy, if_true, hswap]
    · rw [hitem, if_neg hab, if_pos rfl, hb]
    · rw [hitem, if_pos rfl, ha]
    · intro k hka hkb
      rw [hitem, if_neg hkb, if_neg hka]
  · refine ⟨arr, x, y, ?_, fun lo hi _ _ _ _ => .refl lo hi arr, ha, hb, not_lt.mp hxy, .inl rfl,
      fun _ _ _ => rfl⟩
    simp only [swapIfLt, hcmp, Option.bind_eq_bind, Option.bind_some, decide_eq_false hxy,
      Bool.false_eq_true, if_false]

/-- The median is at `mid`. -/
lemma medianOfThree_spec (hlt : Compares key lt) (hlen : arr.srtOrdr.length = arr.pbase.length)
    (hlo : 0 ≤ lo) (hlm : lo < mid) (hmh : mid < hi) (hhi : hi < arr.pbase.length) :
    ∃ arr' x p y, medianOfThree lt arr lo mid hi = some arr' ∧ Rearranged lo hi arr arr' ∧
      itemAt arr'.pbase lo = some x ∧ itemAt arr'.pbase mid = some p ∧ itemAt arr'.pbase hi = some y ∧
      key x ≤ key p ∧ key p ≤ key y := by
  obtain ⟨x, hx⟩ := exists_itemAt hlo (by omega : lo < arr.pbase.length)
  obtain ⟨p, hp⟩ := exists_itemAt (by omega) (by omega : mid < arr.pbase.length)
  obtain ⟨y, hy⟩ := exists_itemAt (by omega) hhi
  obtain ⟨arr₁, p₁, x₁, hswap₁, hre₁, hp₁, hx₁, hle₁, -, hrest₁⟩ :=
    swapIfLt_spec hlt hlen hp hx (by omega)
  have hre₁ := hre₁ lo hi (by omega) (by omega) (by omega) (by omega)
  have hy₁ : itemAt arr₁.pbase hi = some y := by rw [hrest₁ hi (by omega) (by omega), hy]
  have hlen₁ : arr₁.srtOrdr.length = arr₁.pbase.length := by
    rw [hre₁.length_pbase, hre₁.length_srtOrdr, hlen]
  have hcmp := ltAt_eq hlt hy₁ hp₁
  by_cases hyp : key y < key p₁
  · obtain ⟨arr₂, hswap₂, hre₂, hitem₂⟩ := swapItems_spec hlen₁ (by omega : 0 ≤ mid)
      (by rw [hre₁.length_pbase]; omega) (by omega : 0 ≤ hi) (by rw [hre₁.length_pbase]; omega)
    have hre₂ := hre₂ lo hi (by omega) (by omega) (by omega) (by omega)
    have hp₂ : itemAt arr₂.pbase mid = some y := by rw [hitem₂, if_neg (by omega), if_pos rfl, hy₁]
    have hy₂ : itemAt arr₂.pbase hi = some p₁ := by rw [hitem₂, if_pos rfl, hp₁]
    have hx₂ : itemAt arr₂.pbase lo = some x₁ := by rw [hitem₂, if_neg (by omega), if_neg (by omega), hx₁]
    have hlen₂ : arr₂.srtOrdr.length = arr₂.pbase.length := by
      rw [hre₂.length_pbase, hre₂.length_srtOrdr, hlen₁]
    obtain ⟨arr₃, p₃, x₃, hswap₃, hre₃, hp₃, hx₃, hle₃, hor₃, hrest₃⟩ :=
      swapIfLt_spec hlt hlen₂ hp₂ hx₂ (by omega)
    have hy₃ : itemAt arr₃.pbase hi = some p₁ := by rw [hrest₃ hi (by omega) (by omega), hy₂]
    refine ⟨arr₃, x₃, p₃, p₁, ?_, (hre₁.trans hre₂).trans (hre₃ lo hi (by omega) (by omega) (by omega)
      (by omega)), hx₃, hp₃, hy₃, hle₃, ?_⟩
    · simp only [medianOfThree, hswap₁, hcmp, Option.bind_eq_bind, Option.bind_some, decide_eq_true hyp,
        if_true, hswap₂, hswap₃]
    · obtain rfl | rfl := hor₃
      · exact hyp.le
      · exact hle₁
  · refine ⟨arr₁, x₁, p₁, y, ?_, hre₁, hx₁, hp₁, hy₁, hle₁, not_lt.mp hyp⟩
    simp only [medianOfThree, hswap₁, hcmp, Option.bind_eq_bind, Option.bind_some, decide_eq_false hyp,
      Bool.false_eq_true, if_false]

/-! ### The walls -/

/-- A scan passes what the test accepts and stops where it fails first. -/
lemma scanWhile_spec (test : Int → Option Bool) (step ptr : Int) {m : Nat} (hm : m < n)
    (hread : ∀ j ≤ m, ∃ t, test (ptr + step * j) = some t) (hstop : test (ptr + step * m) = some false) :
    ∃ q ≤ m, scanWhile test step n ptr = some (ptr + step * q) ∧ test (ptr + step * q) = some false ∧
      ∀ j < q, test (ptr + step * j) = some true := by
  induction n generalizing ptr m with
  | zero => exact absurd hm (Nat.not_lt_zero m)
  | succ n ih =>
    have hzero : ptr + step * (0 : Nat) = ptr := by simp
    obtain ⟨t, ht⟩ := hread 0 (Nat.zero_le m)
    rw [hzero] at ht
    cases t with
    | false =>
      refine ⟨0, Nat.zero_le m, ?_, by rw [hzero, ht], fun j hj => absurd hj (Nat.not_lt_zero j)⟩
      simp only [scanWhile, ht, hzero, Option.bind_eq_bind, Option.bind_some, Bool.false_eq_true, if_false]
    | true =>
      have hpos : m ≠ 0 := by
        rintro rfl
        rw [hzero, ht] at hstop
        cases hstop
      obtain ⟨m, rfl⟩ := Nat.exists_eq_succ_of_ne_zero hpos
      have hnext : ∀ j : Nat, ptr + step + step * j = ptr + step * (j + 1 : Nat) := by
        intro j
        rw [Nat.cast_add, Int.mul_add, Nat.cast_one, Int.mul_one, add_assoc, add_comm step]
      have hread' : ∀ j ≤ m, ∃ t, test (ptr + step + step * j) = some t := by
        intro j hj
        rw [hnext]
        exact hread (j + 1) (by omega)
      obtain ⟨q, hq, hscan, hfalse, htrue⟩ :=
        ih (ptr + step) (Nat.lt_of_succ_lt_succ hm) hread' (by rw [hnext]; exact hstop)
      refine ⟨q + 1, by omega, ?_, by rw [← hnext, hfalse], ?_⟩
      · simp only [scanWhile, ht, Option.bind_eq_bind, Option.bind_some, if_true, hscan, hnext]
      · intro j hj
        cases j with
        | zero => rw [hzero, ht]
        | succ j => rw [← hnext, htrue j (by omega)]

/-- The same for a test of the elements. -/
lemma scanWhile_items {test : Int → Option Bool} {f : Cell size → Bool} {pbase : List (Cell size)}
    (htest : ∀ i z, itemAt pbase i = some z → test i = some (f z)) (step ptr : Int) {m : Nat} {y : Cell size}
    (hm : m < n) (hin : ∀ j ≤ m, 0 ≤ ptr + step * j ∧ ptr + step * j < pbase.length)
    (hy : itemAt pbase (ptr + step * m) = some y) (hfy : f y = false) :
    ∃ q ≤ m, ∃ x, scanWhile test step n ptr = some (ptr + step * q) ∧
      itemAt pbase (ptr + step * q) = some x ∧ f x = false ∧
      ∀ j < q, ∀ z, itemAt pbase (ptr + step * j) = some z → f z = true := by
  have hread : ∀ j ≤ m, ∃ t, test (ptr + step * j) = some t := by
    intro j hj
    obtain ⟨z, hz⟩ := exists_itemAt (hin j hj).1 (hin j hj).2
    exact ⟨f z, htest _ z hz⟩
  obtain ⟨q, hq, hscan, hfalse, htrue⟩ :=
    scanWhile_spec test step ptr hm hread (by rw [htest _ y hy, hfy])
  obtain ⟨x, hx⟩ := exists_itemAt (hin q hq).1 (hin q hq).2
  refine ⟨q, hq, x, hscan, hx, ?_, ?_⟩
  · rw [htest _ x hx, Option.some.injEq] at hfalse
    exact hfalse
  · intro j hj z hz
    have htrue := htrue j hj
    rw [htest _ z hz, Option.some.injEq] at htrue
    exact htrue

/-- The left wall stops at an element that is not less than the pivot. -/
lemma scanUp_spec (hlt : Compares key lt) {pbase : List (Cell size)} {stop ptr : Int} {y : Cell size}
    (hp : itemAt pbase mid = some p) (hptr : 0 ≤ ptr) (hle : ptr ≤ stop) (hy : itemAt pbase stop = some y)
    (hpy : key p ≤ key y) :
    ∃ q x, scanUp lt pbase mid ptr = some q ∧ ptr ≤ q ∧ q ≤ stop ∧ itemAt pbase q = some x ∧
      key p ≤ key x ∧ ∀ i z, ptr ≤ i → i < q → itemAt pbase i = some z → key z < key p := by
  have hstop := (bounds_of_itemAt hy).2
  obtain ⟨m, hm⟩ : ∃ m : Nat, stop = ptr + 1 * m := ⟨(stop - ptr).toNat, by omega⟩
  rw [hm] at hy
  obtain ⟨q, hq, x, hscan, hx, hfalse, htrue⟩ := scanWhile_items
    (fun i z hz => ltAt_eq hlt hz hp) 1 ptr (show m < pbase.length by omega) (fun j hj => by omega) hy
    (decide_eq_false (not_lt.mpr hpy))
  refine ⟨ptr + 1 * q, x, hscan, by omega, by omega, hx, not_lt.mp (of_decide_eq_false hfalse), ?_⟩
  intro i z hpi hiq hz
  obtain ⟨j, rfl⟩ : ∃ j : Nat, i = ptr + 1 * j := ⟨(i - ptr).toNat, by omega⟩
  exact of_decide_eq_true (htrue j (by omega) z hz)

/-- The right wall stops at an element that is not greater than the pivot. -/
lemma scanDown_spec (hlt : Compares key lt) {pbase : List (Cell size)} {stop ptr : Int} {y : Cell size}
    (hp : itemAt pbase mid = some p) (hptr : ptr < pbase.length) (hle : stop ≤ ptr)
    (hy : itemAt pbase stop = some y) (hyp : key y ≤ key p) :
    ∃ q x, scanDown lt pbase mid ptr = some q ∧ stop ≤ q ∧ q ≤ ptr ∧ itemAt pbase q = some x ∧
      key x ≤ key p ∧ ∀ i z, q < i → i ≤ ptr → itemAt pbase i = some z → key p < key z := by
  have hstop := (bounds_of_itemAt hy).1
  obtain ⟨m, hm⟩ : ∃ m : Nat, stop = ptr + -1 * m := ⟨(ptr - stop).toNat, by omega⟩
  rw [hm] at hy
  obtain ⟨q, hq, x, hscan, hx, hfalse, htrue⟩ := scanWhile_items
    (fun i z hz => ltAt_eq hlt hp hz) (-1) ptr (show m < pbase.length by omega) (fun j hj => by omega) hy
    (decide_eq_false (not_lt.mpr hyp))
  refine ⟨ptr + -1 * q, x, hscan, by omega, by omega, hx, not_lt.mp (of_decide_eq_false hfalse), ?_⟩
  intro i z hqi hip hz
  obtain ⟨j, rfl⟩ : ∃ j : Nat, i = ptr + -1 * j := ⟨(ptr - i).toNat, by omega⟩
  exact of_decide_eq_true (htrue j (by omega) z hz)

/-- Left of the left wall nothing is greater than the pivot, right of the right wall nothing is less. -/
structure WallsInv (key : Cell size → β) (lo hi : Int) (v : β) (arr : SortArrays size ι) (w : Walls size ι) :
    Prop where
  rearranged : Rearranged lo hi arr w.arr
  pivot : ∃ p, itemAt w.arr.pbase w.mid = some p ∧ key p = v
  low : ∀ i x, lo ≤ i → i < w.left → itemAt w.arr.pbase i = some x → key x ≤ v
  high : ∀ i x, w.right < i → i ≤ hi → itemAt w.arr.pbase i = some x → v ≤ key x
  left_bounds : lo < w.left ∧ w.left ≤ hi
  right_bounds : lo ≤ w.right ∧ w.right < hi
  again : w.again = decide (w.left ≤ w.right)

def wallsMeasure (w : Walls size ι) : Nat := (w.right + 1 - w.left).toNat

/-- The walls stop at `l` and at `r`, at elements that may change places. -/
structure WallsStopped (key : Cell size → β) (lo hi : Int) (v : β) (w : Walls size ι) (l r : Int) : Prop where
  left_bounds : w.left ≤ l ∧ l ≤ hi
  right_bounds : lo ≤ r ∧ r ≤ w.right
  left_stop : ∃ x, itemAt w.arr.pbase l = some x ∧ v ≤ key x
  right_stop : ∃ x, itemAt w.arr.pbase r = some x ∧ key x ≤ v
  low : ∀ i x, lo ≤ i → i < l → itemAt w.arr.pbase i = some x → key x ≤ v
  high : ∀ i x, r < i → i ≤ hi → itemAt w.arr.pbase i = some x → v ≤ key x

lemma WallsInv.scan (hlt : Compares key lt) (hlo : 0 ≤ lo) (hhi : hi < arr.pbase.length) {w : Walls size ι}
    (h : WallsInv key lo hi v arr w) :
    ∃ l r, scanUp lt w.arr.pbase w.mid w.left = some l ∧ scanDown lt w.arr.pbase w.mid w.right = some r ∧
      WallsStopped key lo hi v w l r := by
  obtain ⟨hleft, hlefthi⟩ := h.left_bounds
  obtain ⟨hrightlo, hright⟩ := h.right_bounds
  have hwlen : w.arr.pbase.length = arr.pbase.length := h.rearranged.length_pbase
  obtain ⟨p, hp, rfl⟩ := h.pivot
  obtain ⟨y, hy⟩ := exists_itemAt (X := w.arr.pbase) (i := hi) (by omega) (by omega)
  obtain ⟨x, hx⟩ := exists_itemAt (X := w.arr.pbase) (i := lo) hlo (by omega)
  obtain ⟨l, xl, hscanl, hll, hlhi, hxl, hxlp, hpassed⟩ :=
    scanUp_spec hlt hp (by omega) hlefthi hy (h.high hi y hright le_rfl hy)
  obtain ⟨r, xr, hscanr, hrlo, hrr, hxr, hxrp, hpassed'⟩ :=
    scanDown_spec hlt hp (by omega) hrightlo hx (h.low lo x le_rfl hleft hx)
  refine ⟨l, r, hscanl, hscanr, ⟨hll, hlhi⟩, ⟨hrlo, hrr⟩, ⟨xl, hxl, hxlp⟩, ⟨xr, hxr, hxrp⟩, ?_, ?_⟩
  · intro i z hi hil hz
    by_cases hiw : i < w.left
    · exact h.low i z hi hiw hz
    · exact (hpassed i z (by omega) hil hz).le
  · intro i z hri hi hz
    by_cases hiw : w.right < i
    · exact h.high i z hiw hi hz
    · exact (hpassed' i z hri (by omega) hz).le

/-- The elements change places. The pivot itself may be one of the two. -/
lemma WallsInv.swap (hlen : arr.srtOrdr.length = arr.pbase.length) (hlo : 0 ≤ lo)
    (hhi : hi < arr.pbase.length) {w : Walls size ι} {l r : Int} (h : WallsInv key lo hi v arr w)
    (hs : WallsStopped key lo hi v w l r) (hlr : l < r) :
    ∃ arr', swapItems w.arr l r = some arr' ∧
      WallsInv key lo hi v arr ⟨l + 1, r - 1, if w.mid = l then r else if w.mid = r then l else w.mid, arr',
        decide (l + 1 ≤ r - 1)⟩ := by
  have hwlen : w.arr.pbase.length = arr.pbase.length := h.rearranged.length_pbase
  have hlen' : w.arr.srtOrdr.length = w.arr.pbase.length := by
    rw [h.rearranged.length_srtOrdr, hlen, hwlen]
  have hleft := h.left_bounds
  have hright := h.right_bounds
  have hll := hs.left_bounds
  have hrr := hs.right_bounds
  obtain ⟨xl, hxl, hxlv⟩ := hs.left_stop
  obtain ⟨xr, hxr, hxrv⟩ := hs.right_stop
  obtain ⟨arr', hswap, hre, hitem⟩ := swapItems_spec hlen' (show 0 ≤ l by omega) (by omega)
    (show 0 ≤ r by omega) (by omega)
  refine ⟨arr', hswap, h.rearranged.trans (hre lo hi (by omega) (by omega) (by omega) (by omega)), ?_, ?_, ?_,
    by dsimp only; omega, by dsimp only; omega, rfl⟩
  · obtain ⟨p, hp, hpv⟩ := h.pivot
    refine ⟨p, ?_, hpv⟩
    dsimp only
    rw [hitem]
    by_cases hml : w.mid = l
    · rw [if_pos hml, if_pos rfl, ← hml, hp]
    · rw [if_neg hml]
      by_cases hmr : w.mid = r
      · rw [if_pos hmr, if_neg (by omega), if_pos rfl, ← hmr, hp]
      · rw [if_neg hmr, if_neg hmr, if_neg hml, hp]
  · intro i z hi hil hz
    dsimp only at hil hz
    rw [hitem, if_neg (by omega)] at hz
    split_ifs at hz with hil'
    · exact Option.some.inj (hxr.symm.trans hz) ▸ hxrv
    · exact hs.low i z hi (by omega) hz
  · intro i z hri hi hz
    dsimp only at hri hz
    rw [hitem] at hz
    split_ifs at hz with hir hil
    · exact Option.some.inj (hxl.symm.trans hz) ▸ hxlv
    · omega
    · exact hs.high i z (by omega) hi hz

/-- The walls meet at an element with the key of the pivot. -/
lemma WallsInv.meet {w : Walls size ι} {l : Int} (h : WallsInv key lo hi v arr w)
    (hs : WallsStopped key lo hi v w l l) : WallsInv key lo hi v arr ⟨l + 1, l - 1, w.mid, w.arr, false⟩ := by
  have hleft := h.left_bounds
  have hright := h.right_bounds
  have hll := hs.left_bounds
  have hrr := hs.right_bounds
  obtain ⟨xl, hxl, hxlv⟩ := hs.left_stop
  obtain ⟨xr, hxr, hxrv⟩ := hs.right_stop
  refine ⟨h.rearranged, h.pivot, ?_, ?_, by dsimp only; omega, by dsimp only; omega, ?_⟩
  · intro i z hi hil hz
    dsimp only at hil hz
    by_cases hieq : i = l
    · rw [hieq, hxr, Option.some.injEq] at hz
      exact hz ▸ hxrv
    · exact hs.low i z hi (by omega) hz
  · intro i z hri hi hz
    dsimp only at hri hz
    by_cases hieq : i = l
    · rw [hieq, hxl, Option.some.injEq] at hz
      exact hz ▸ hxlv
    · exact hs.high i z (by omega) hi hz
  · rw [eq_comm, decide_eq_false_iff_not]
    dsimp only
    omega

/-- One round: both walls move inwards. -/
lemma WallsInv.step (hlt : Compares key lt) (hlen : arr.srtOrdr.length = arr.pbase.length) (hlo : 0 ≤ lo)
    (hhi : hi < arr.pbase.length) {w : Walls size ι} (h : WallsInv key lo hi v arr w)
    (hmore : w.again = true) :
    ∃ w', collapseBody lt w = some w' ∧ WallsInv key lo hi v arr w' ∧ wallsMeasure w' < wallsMeasure w := by
  have hle : w.left ≤ w.right := by
    rw [h.again] at hmore
    exact of_decide_eq_true hmore
  have hleft := h.left_bounds
  have hright := h.right_bounds
  obtain ⟨l, r, hscanl, hscanr, hs⟩ := h.scan hlt hlo hhi
  have hll := hs.left_bounds
  have hrr := hs.right_bounds
  simp only [collapseBody, hscanl, hscanr, Option.bind_eq_bind, Option.bind_some]
  unfold wallsMeasure
  rcases lt_trichotomy l r with hlr | rfl | hlr
  · obtain ⟨arr', hswap, hinv⟩ := h.swap hlen hlo hhi hs hlr
    exact ⟨_, by rw [if_pos hlr, hswap]; rfl, hinv, by dsimp only; omega⟩
  · exact ⟨_, by rw [if_neg (lt_irrefl l), if_pos rfl], h.meet hs, by dsimp only; omega⟩
  · refine ⟨_, by rw [if_neg (not_lt.mpr hlr.le), if_neg (ne_of_gt hlr)], ?_, by dsimp only; omega⟩
    exact ⟨h.rearranged, h.pivot, hs.low, hs.high, by dsimp only; omega, by dsimp only; omega, rfl⟩

/-- A piece after it has been cut. -/
structure CutPiece (key : Cell size → β) (lo hi : Int) (arr : SortArrays size ι) (w : Walls size ι) : Prop where
  rearranged : Rearranged lo hi arr w.arr
  right_bounds : lo ≤ w.right ∧ w.right < hi
  left_bounds : w.right < w.left ∧ w.left ≤ hi
  le : ∀ i j x y, lo ≤ i → i ≤ w.right → w.right < j → j ≤ hi → itemAt w.arr.pbase i = some x →
    itemAt w.arr.pbase j = some y → key x ≤ key y

/-- The walls meet. -/
lemma collapse_spec (hlt : Compares key lt) (hlen : arr.srtOrdr.length = arr.pbase.length) (hlo : 0 ≤ lo)
    (hsize : lo + 2 < hi) (hhi : hi < arr.pbase.length) {x y : Cell size} (hx : itemAt arr.pbase lo = some x)
    (hp : itemAt arr.pbase mid = some p) (hy : itemAt arr.pbase hi = some y) (hxp : key x ≤ key p)
    (hpy : key p ≤ key y) :
    ∃ w, loop Walls.again (collapseBody lt) arr.pbase.length ⟨lo + 1, hi - 1, mid, arr, true⟩ = .done w ∧
      CutPiece key lo hi arr w := by
  have hstart : WallsInv key lo hi (key p) arr ⟨lo + 1, hi - 1, mid, arr, true⟩ := by
    refine ⟨.refl lo hi arr, ⟨p, hp, rfl⟩, ?_, ?_, by dsimp only; omega, by dsimp only; omega, ?_⟩
    · intro i z hi hil hz
      dsimp only at hil hz
      obtain rfl : i = lo := by omega
      rw [hx, Option.some.injEq] at hz
      exact hz ▸ hxp
    · intro i z hri hi' hz
      dsimp only at hri hz
      obtain rfl : i = hi := by omega
      rw [hy, Option.some.injEq] at hz
      exact hz ▸ hpy
    · rw [eq_comm, decide_eq_true_iff]
      dsimp only
      omega
  have hmeasure : wallsMeasure (⟨lo + 1, hi - 1, mid, arr, true⟩ : Walls size ι) ≤ arr.pbase.length := by
    unfold wallsMeasure
    dsimp only
    omega
  obtain ⟨w, hloop, hinv, hstop⟩ := loop_finishes (fun _ h hmore => WallsInv.step hlt hlen hlo hhi h hmore)
    hstart hmeasure
  have hover : w.right < w.left := by
    rw [hinv.again] at hstop
    exact not_le.mp (of_decide_eq_false hstop)
  refine ⟨w, hloop, hinv.rearranged, hinv.right_bounds, ⟨hover, hinv.left_bounds.2⟩, ?_⟩
  intro i j z z' hli hir hrj hjh hz hz'
  exact (hinv.low i z hli (by omega) hz).trans (hinv.high j z' hrj hjh hz')

end

end Datacl
