import Datacl.Sorting.QsortInsertion
import Mathlib.Order.OrderDual

/-!
# The sort keeps pairs together
-/

namespace Datacl

open Shifting

section

variable {size : Nat} {ι β : Type} [LinearOrder β] {key : Cell size → β} {lt : Cell size → Cell size → Bool}
  {arr : SortArrays size ι} {idxBits n t r : Nat} {pbase pbase' : List (Cell size)}

/-- The first elements are in order. -/
def SortedTo (key : Cell size → β) (pbase : List (Cell size)) (r : Nat) : Prop :=
  ∀ i j x y, i < j → j < r → pbase[i]? = some x → pbase[j]? = some y → key x ≤ key y

/-- No element is less than the first one. -/
def LeastFirst (key : Cell size → β) (pbase : List (Cell size)) : Prop :=
  ∀ (i : Nat) x y, pbase[0]? = some x → pbase[i]? = some y → key x ≤ key y

/-- Insertion behind the last element that is not greater. -/
lemma SortedTo.moved (h : SortedTo key pbase r) (hmoved : Moved t r pbase pbase') (ht : 0 < t) (htr : t ≤ r)
    {x y : Cell size} (hx : pbase[r]? = some x) (hy : pbase[t - 1]? = some y) (hyx : key y ≤ key x)
    (hgt : ∀ i z, t ≤ i → i < r → pbase[i]? = some z → key x < key z) : SortedTo key pbase' (r + 1) := by
  have hbefore : ∀ i z, i < t → pbase[i]? = some z → key z ≤ key x := by
    intro i z hit hz
    by_cases hlast : i = t - 1
    · rw [hlast, hy, Option.some.injEq] at hz
      exact hz ▸ hyx
    · exact (h i (t - 1) z y (by omega) (by omega) hz hy).trans hyx
  intro i j z z' hij hjr hz hz'
  rw [hmoved] at hz hz'
  rcases Nat.lt_trichotomy j t with hjt | rfl | htj
  · rw [source_before (by omega)] at hz hz'
    exact h i j z z' hij (by omega) hz hz'
  · rw [source_before hij] at hz
    rw [source_self, hx, Option.some.injEq] at hz'
    exact hz' ▸ hbefore i z hij hz
  · rw [source_between htj (by omega)] at hz'
    rcases Nat.lt_trichotomy i t with hit | rfl | hti
    · rw [source_before hit] at hz
      exact h i (j - 1) z z' (by omega) (by omega) hz hz'
    · rw [source_self, hx, Option.some.injEq] at hz
      exact hz ▸ (hgt (j - 1) z' (by omega) (by omega) hz').le
    · rw [source_between hti (by omega)] at hz
      exact h (i - 1) (j - 1) z z' (by omega) (by omega) hz hz'

lemma LeastFirst.moved (h : LeastFirst key pbase) (hmoved : Moved t r pbase pbase') (ht : 0 < t) :
    LeastFirst key pbase' := by
  intro i x y hx hy
  rw [hmoved, source_before ht] at hx
  rw [hmoved] at hy
  exact h _ x y hx hy

/-- What the insertion sort keeps. -/
structure InsertInv (key : Cell size → β) (arr₀ arr : SortArrays size ι) (r : Nat) : Prop where
  pairs : arr.pairs.Perm arr₀.pairs
  length_pbase : arr.pbase.length = arr₀.pbase.length
  length_srtOrdr : arr.srtOrdr.length = arr.pbase.length
  least : LeastFirst key arr.pbase
  sorted : SortedTo key arr.pbase r

lemma InsertInv.step (hlt : Compares key lt) (hsize : 0 < size) {arr₀ : SortArrays size ι}
    (hidx : FitsIdx idxBits arr₀.pbase.length) (h : InsertInv key arr₀ arr r) (hr0 : 0 < r)
    (hr : r < arr₀.pbase.length) :
    ∃ arr', insertRun lt idxBits arr r = some arr' ∧ InsertInv key arr₀ arr' (r + 1) := by
  have hlen := h.length_pbase
  have hordr := h.length_srtOrdr
  obtain ⟨x, hx⟩ : ∃ x, arr.pbase[r]? = some x := ⟨_, List.getElem?_eq_getElem (by omega)⟩
  obtain ⟨x₀, hx₀⟩ : ∃ x, arr.pbase[0]? = some x := ⟨_, List.getElem?_eq_getElem (by omega)⟩
  obtain ⟨o, ho⟩ : ∃ o, arr.srtOrdr[r]? = some o := ⟨_, List.getElem?_eq_getElem (by omega)⟩
  have hx' : itemAt arr.pbase (r : Nat) = some x := by rw [itemAt_natCast, hx]
  have hx₀' : itemAt arr.pbase 0 = some x₀ := by
    have hzero := itemAt_natCast arr.pbase 0
    rw [hx₀] at hzero
    exact hzero
  -- the first element stops the scan
  obtain ⟨q, y, hscan, hq0, hqr, hy, hyx, hpassed⟩ := scanDown_spec hlt hx'
    (show (r : Int) - 1 < arr.pbase.length by omega) (by omega) hx₀' (h.least r x₀ x hx₀ hx)
  obtain ⟨p, rfl⟩ := Int.eq_ofNat_of_zero_le hq0
  rw [itemAt_natCast] at hy
  have hgt : ∀ i z, p + 1 ≤ i → i < r → arr.pbase[i]? = some z → key x < key z := by
    intro i z hpi hir hz
    exact hpassed i z (by omega) (by omega) (by rw [itemAt_natCast, hz])
  have hpos : itemAt arr.srtOrdr (posOf idxBits ((r : Int) - 1 + 1)) = some o := by
    rw [Int.sub_add_cancel, hidx r hr, itemAt_natCast, ho]
  by_cases hstays : (p : Int) + 1 = r
  · refine ⟨arr, ?_, h.pairs, hlen, hordr, h.least, ?_⟩
    · simp only [insertRun, hpos, hscan, Option.bind_eq_bind, Option.bind_some, if_pos hstays]
    · have hself : Moved r r arr.pbase arr.pbase := fun i => by
        rcases Nat.lt_trichotomy i r with hir | rfl | hri
        · rw [source_before hir]
        · rw [source_self]
        · rw [source_behind le_rfl hri]
      obtain rfl : r = p + 1 := by omega
      exact h.sorted.moved hself hr0 le_rfl hx hy hyx hgt
  · obtain ⟨arr', hpasses, hmoved, hmovedO⟩ := insertPasses_spec (t := p + 1) hsize (by rwa [hlen]) hordr
      (by omega) (by omega : r < arr.pbase.length) ho
    have hlen' := hmoved.length_eq (by omega) (by omega)
    have hordr' := hmovedO.length_eq (by omega) (by omega)
    have hzip : (arr.pbase.zip arr.srtOrdr).length = arr.pbase.length := by
      rw [List.length_zip, hordr, Nat.min_self]
    refine ⟨arr', ?_, ?_, hlen'.trans hlen, by omega, h.least.moved hmoved (by omega), ?_⟩
    · simp only [insertRun, hpos, hscan, Option.bind_eq_bind, Option.bind_some, if_neg hstays]
      exact hpasses
    · exact ((hmoved.zip hmovedO).perm (by omega) (by rw [hzip]; omega)).trans h.pairs
    · exact h.sorted.moved hmoved (by omega) (by omega) hx (by rwa [Nat.add_sub_cancel]) hyx hgt

/-- The runs from `r` on. -/
lemma insertRuns_spec (hlt : Compares key lt) (hsize : 0 < size) {arr₀ : SortArrays size ι}
    (hidx : FitsIdx idxBits arr₀.pbase.length) (h : InsertInv key arr₀ arr r) (hr0 : 0 < r)
    (hn : r + n ≤ arr₀.pbase.length) :
    ∃ arr', insertRuns lt idxBits ((List.range' r n).map fun i : Nat => (i : Int)) arr = some arr' ∧
      InsertInv key arr₀ arr' (r + n) := by
  induction n generalizing r arr with
  | zero => exact ⟨arr, rfl, h⟩
  | succ n ih =>
    obtain ⟨arr₁, hrun, hinv⟩ := h.step hlt hsize hidx hr0 (by omega)
    obtain ⟨arr', hruns, hinv'⟩ := ih hinv (by omega) (by omega)
    refine ⟨arr', ?_, by rwa [show r + (n + 1) = r + 1 + n by omega]⟩
    rw [List.range'_succ, List.map_cons]
    simp only [insertRuns, hrun, hruns, Option.bind_eq_bind, Option.bind_some]

/-! ### The least element -/

/-- The search finds the least of the elements it sees. -/
lemma findMin_spec (hlt : Compares key lt) {runs : List Int} {tmp : Int}
    (hin : ∀ i ∈ tmp :: runs, 0 ≤ i ∧ i < pbase.length) :
    ∃ q ∈ tmp :: runs, ∃ x, findMin lt pbase runs tmp = some q ∧ itemAt pbase q = some x ∧
      ∀ i ∈ tmp :: runs, ∀ y, itemAt pbase i = some y → key x ≤ key y := by
  induction runs generalizing tmp with
  | nil =>
    have htmp := hin tmp List.mem_cons_self
    obtain ⟨x, hx⟩ := exists_itemAt htmp.1 htmp.2
    refine ⟨tmp, List.mem_cons_self, x, rfl, hx, fun i hi y hy => ?_⟩
    rw [List.mem_singleton.mp hi, hx, Option.some.injEq] at hy
    exact hy ▸ le_rfl
  | cons run runs ih =>
    have htmp := hin tmp List.mem_cons_self
    have hrun := hin run (List.mem_cons_of_mem _ List.mem_cons_self)
    have hruns : ∀ i ∈ runs, 0 ≤ i ∧ i < pbase.length := fun i hi =>
      hin i (List.mem_cons_of_mem _ (List.mem_cons_of_mem _ hi))
    obtain ⟨x, hx⟩ := exists_itemAt htmp.1 htmp.2
    obtain ⟨y, hy⟩ := exists_itemAt hrun.1 hrun.2
    have hcmp := ltAt_eq hlt hy hx
    -- the search goes on with the lesser one of the two
    obtain ⟨next, z, hnext, hstep, hz, hzx, hzy⟩ : ∃ next z, (next = tmp ∨ next = run) ∧
        findMin lt pbase (run :: runs) tmp = findMin lt pbase runs next ∧ itemAt pbase next = some z ∧
        key z ≤ key x ∧ key z ≤ key y := by
      by_cases hyx : key y < key x
      · refine ⟨run, y, .inr rfl, ?_, hy, hyx.le, le_rfl⟩
        simp only [findMin, hcmp, decide_eq_true hyx, Option.bind_eq_bind, Option.bind_some, if_true]
      · refine ⟨tmp, x, .inl rfl, ?_, hx, le_rfl, not_lt.mp hyx⟩
        simp only [findMin, hcmp, decide_eq_false hyx, Option.bind_eq_bind, Option.bind_some,
          Bool.false_eq_true, if_false]
    have hin' : ∀ i ∈ next :: runs, 0 ≤ i ∧ i < pbase.length := by
      refine List.forall_mem_cons.mpr ⟨?_, hruns⟩
      obtain rfl | rfl := hnext
      · exact htmp
      · exact hrun
    obtain ⟨q, hq, x', hfind, hx', hle⟩ := ih hin'
    refine ⟨q, ?_, x', hstep.trans hfind, hx', ?_⟩
    · rcases List.mem_cons.mp hq with rfl | hq
      · obtain rfl | rfl := hnext
        · exact List.mem_cons_self
        · exact List.mem_cons_of_mem _ List.mem_cons_self
      · exact List.mem_cons_of_mem _ (List.mem_cons_of_mem _ hq)
    · have hx'z := hle next List.mem_cons_self z hz
      intro i hi w hw
      rcases List.mem_cons.mp hi with rfl | hi
      · rw [hx, Option.some.injEq] at hw
        exact hw ▸ hx'z.trans hzx
      · rcases List.mem_cons.mp hi with rfl | hi
        · rw [hy, Option.some.injEq] at hw
          exact hw ▸ hx'z.trans hzy
        · exact hle i (List.mem_cons_of_mem _ hi) w hw

/-- The least element is brought to the front. -/
lemma leastFirst_spec (hlt : Compares key lt) (hlen : arr.srtOrdr.length = arr.pbase.length)
    (hpos : 0 < arr.pbase.length) {c : Int} (hc : 1 ≤ c) (hc' : c ≤ 5) (hcut : CutAt key arr.pbase c) :
    ∃ tmp arr', findMin lt arr.pbase
        ((List.range (min (arr.pbase.length - 1) 4)).map fun i : Nat => (i : Int) + 1) 0 = some tmp ∧
      (if tmp ≠ 0 then swapItems arr tmp 0 else some arr) = some arr' ∧
      Rearranged 0 (arr.pbase.length - 1) arr arr' ∧ LeastFirst key arr'.pbase := by
  have hmem : ∀ i : Int, i ∈ (0 : Int) :: (List.range (min (arr.pbase.length - 1) 4)).map
      (fun i : Nat => (i : Int) + 1) ↔ 0 ≤ i ∧ i < arr.pbase.length ∧ i ≤ 4 := by
    intro i
    rw [List.mem_cons, List.mem_map]
    constructor
    · rintro (rfl | ⟨j, hj, rfl⟩)
      · omega
      · rw [List.mem_range] at hj
        omega
    · intro hi
      by_cases hzero : i = 0
      · exact .inl hzero
      · exact .inr ⟨(i - 1).toNat, by rw [List.mem_range]; omega, by omega⟩
  obtain ⟨q, hq, x, hfind, hx, hle⟩ := findMin_spec hlt fun i hi => ⟨((hmem i).mp hi).1, ((hmem i).mp hi).2.1⟩
  have hq' := (hmem q).mp hq
  -- behind the cut no element is less than the first one
  have hleast : ∀ i y, itemAt arr.pbase i = some y → key x ≤ key y := by
    intro i y hy
    obtain ⟨hi0, hin⟩ := bounds_of_itemAt hy
    by_cases hi : i ≤ 4
    · exact hle i ((hmem i).mpr ⟨hi0, hin, hi⟩) y hy
    · obtain ⟨x₀, hx₀⟩ := exists_itemAt (X := arr.pbase) (i := 0) le_rfl (by omega)
      exact (hle 0 List.mem_cons_self x₀ hx₀).trans (hcut 0 i x₀ y (by omega) (by omega) hx₀ hy)
  obtain ⟨arr', hswap, hre, hfirst⟩ : ∃ arr', (if q ≠ 0 then swapItems arr q 0 else some arr) = some arr' ∧
      Rearranged 0 (arr.pbase.length - 1) arr arr' ∧ itemAt arr'.pbase 0 = some x := by
    by_cases hzero : q = 0
    · exact ⟨arr, by rw [if_neg (not_not.mpr hzero)], .refl _ _ arr, hzero ▸ hx⟩
    · obtain ⟨arr', hswap, hre, hitem⟩ :=
        swapItems_spec hlen hq'.1 hq'.2.1 le_rfl (show (0 : Int) < arr.pbase.length by omega)
      refine ⟨arr', by rw [if_pos hzero, hswap], hre _ _ (by omega) (by omega) (by omega) (by omega), ?_⟩
      rw [hitem, if_pos rfl, hx]
  refine ⟨q, arr', hfind, hswap, hre, fun i z y hz hy => ?_⟩
  rw [← itemAt_natCast] at hz hy
  have hz' : itemAt arr'.pbase 0 = some z := hz
  rw [hfirst, Option.some.injEq] at hz'
  obtain ⟨j, hj, -⟩ := hre.source i y hy
  exact hz' ▸ hleast j y hj

/-- The insertion sort sorts, if the least element is among the first ones. -/
lemma insertion_spec (hlt : Compares key lt) (hsize : 0 < size) (hidx : FitsIdx idxBits arr.pbase.length)
    (hlen : arr.srtOrdr.length = arr.pbase.length) (hpos : 0 < arr.pbase.length) {c : Int} (hc : 1 ≤ c)
    (hc' : c ≤ 5) (hcut : CutAt key arr.pbase c) :
    ∃ arr', insertion lt idxBits arr = some arr' ∧ InsertInv key arr arr' arr.pbase.length := by
  obtain ⟨tmp, arr₁, hfind, hswap, hre, hleast⟩ := leastFirst_spec hlt hlen hpos hc hc' hcut
  have hlen₁ := hre.length_pbase
  have hsorted : SortedTo key arr₁.pbase 2 := by
    intro i j x y hij hj hx hy
    obtain rfl : i = 0 := by omega
    exact hleast j x y hx hy
  have hinv : InsertInv key arr arr₁ 2 :=
    ⟨hre.pairs, hlen₁, by rw [hre.length_srtOrdr, hlen, hlen₁], hleast, hsorted⟩
  have hruns : ((List.range (arr.pbase.length - 1 - 1)).map fun i : Nat => (i : Int) + 2) =
      (List.range' 2 (arr.pbase.length - 2)).map fun i : Nat => (i : Int) := by
    rw [List.range'_eq_map_range, List.map_map, Nat.sub_sub]
    refine List.map_congr_left fun i _ => ?_
    rw [Function.comp_apply]
    omega
  have hrun : insertion lt idxBits arr =
      insertRuns lt idxBits ((List.range' 2 (arr.pbase.length - 2)).map fun i : Nat => (i : Int)) arr₁ := by
    unfold insertion
    simp only [hfind, hruns, Option.bind_eq_bind, Option.bind_some]
    split_ifs at hswap ⊢ with hzero
    · rw [hswap, Option.bind_some]
    · rw [Option.some.injEq] at hswap
      rw [hswap]
  rw [hrun]
  by_cases hone : arr.pbase.length = 1
  · refine ⟨arr₁, by rw [hone]; rfl, hinv.pairs, hlen₁, hinv.length_srtOrdr, hleast, ?_⟩
    exact fun i j x y hij hj => hsorted i j x y hij (by omega)
  · obtain ⟨arr', hruns', hinv'⟩ := insertRuns_spec hlt hsize hidx hinv (by omega)
      (show 2 + (arr.pbase.length - 2) ≤ arr.pbase.length by omega)
    rw [show 2 + (arr.pbase.length - 2) = arr.pbase.length by omega] at hinv'
    exact ⟨arr', hruns', hinv'⟩

/-- What a sort has to do. -/
structure SortsPairs (key : Cell size → β) (arr arr' : SortArrays size ι) : Prop where
  sorted : (arr'.pbase.map key).Pairwise (· ≤ ·)
  pairs : arr'.pairs.Perm arr.pairs
  length_eq : arr'.srtOrdr.length = arr'.pbase.length

lemma SortedTo.pairwise (h : SortedTo key pbase pbase.length) : (pbase.map key).Pairwise (· ≤ ·) := by
  rw [List.pairwise_map, List.pairwise_iff_getElem]
  intro i j hi hj hij
  exact h i j _ _ hij hj (List.getElem?_eq_getElem hi) (List.getElem?_eq_getElem hj)

lemma qsortValIdx_spec (hlt : Compares key lt) (hsize : 0 < size) (hsize' : size ≤ 8)
    (hidx : FitsIdx idxBits arr.pbase.length) (hlen : arr.srtOrdr.length = arr.pbase.length)
    (hn : arr.pbase.length < 2 ^ 31) :
    ∃ arr', qsortValIdx lt idxBits arr = some arr' ∧ SortsPairs key arr arr' := by
  unfold qsortValIdx
  by_cases hzero : arr.pbase.length = 0
  · have hnil : arr.pbase = [] := List.length_eq_zero_iff.mp hzero
    exact ⟨arr, by rw [if_pos hzero], by rw [hnil]; exact .nil, .refl _, hlen⟩
  · rw [if_neg hzero]
    -- a short array is not cut into pieces
    obtain ⟨arr₁, c, hquick, hre, hc, hc', hcut⟩ : ∃ arr₁ c,
        (if 4 < arr.pbase.length then quick lt arr else some arr) = some arr₁ ∧
        Rearranged 0 (arr.pbase.length - 1) arr arr₁ ∧ 1 ≤ c ∧ c ≤ 5 ∧ CutAt key arr₁.pbase c := by
      by_cases hlong : 4 < arr.pbase.length
      · rw [if_pos hlong]
        exact quick_spec hlt hsize hsize' hlen hn hlong
      · refine ⟨arr, arr.pbase.length, if_neg hlong, .refl _ _ arr, by omega, by omega, ?_⟩
        intro i j x y hi hj hx hy
        have hbound := (bounds_of_itemAt hy).2
        omega
    have hlen₁ := hre.length_pbase
    have hordr₁ : arr₁.srtOrdr.length = arr₁.pbase.length := by rw [hre.length_srtOrdr, hlen, hlen₁]
    obtain ⟨arr', hins, hinv⟩ := insertion_spec hlt hsize (by rwa [hlen₁]) hordr₁ (by omega) hc hc' hcut
    refine ⟨arr', ?_, ?_, hinv.pairs.trans hre.pairs, hinv.length_srtOrdr⟩
    · split_ifs at hquick ⊢ with hlong
      · simp only [hquick, hins, Option.bind_eq_bind, Option.bind_some]
      · rw [Option.some.injEq] at hquick
        rw [hquick]
        exact hins
    · refine SortedTo.pairwise ?_
      rw [hinv.length_pbase]
      exact hinv.sorted

end

/-! ### The eight sorts -/

/-- The values in the order. -/
def Ordr.Sorted : Ordr → List Int → Prop
  | .asc, vals => vals.Pairwise (· ≤ ·)
  | .dsc, vals => vals.Pairwise (· ≥ ·)

lemma fitsIdx_bits (t : SortInt) {n : Nat} (hn : n < 2 ^ 31) : FitsIdx t.bits n := by
  intro i hi
  cases t with
  | I4 => exact CInt.wrap_of_lt (w := 31) (by omega) (by omega)
  | I8 => exact CInt.wrap_of_lt (w := 63) (by omega) (by omega)

/-- Every one of the sorts ends, without a return from `SWAP`. The values are in order then, and every value
has its index. -/
theorem qsortOrdrValIdx_sorts {ι : Type} (ordr : Ordr) (valtype idxtype : SortInt)
    (arr : SortArrays valtype.size ι) (hlen : arr.srtOrdr.length = arr.pbase.length)
    (hn : arr.pbase.length < 2 ^ 31) :
    ∃ arr', qsortOrdrValIdx ordr valtype idxtype arr = some arr' ∧
      ordr.Sorted (arr'.pbase.map Cell.val) ∧
      (arr'.pbase.zip arr'.srtOrdr).Perm (arr.pbase.zip arr.srtOrdr) ∧
      arr'.pbase.length = arr.pbase.length ∧ arr'.srtOrdr.length = arr'.pbase.length := by
  have hsize : 0 < valtype.size := by cases valtype <;> decide
  have hsize' : valtype.size ≤ 8 := by cases valtype <;> decide
  have hidx := fitsIdx_bits idxtype hn
  have hlength : ∀ {arr' : SortArrays valtype.size ι}, arr'.pairs.Perm arr.pairs →
      arr'.srtOrdr.length = arr'.pbase.length → arr'.pbase.length = arr.pbase.length := by
    intro arr' hperm hlen'
    have heq := hperm.length_eq
    simp only [SortArrays.pairs, List.length_zip] at heq
    omega
  cases ordr with
  | asc =>
    obtain ⟨arr', hrun, hsorts⟩ := qsortValIdx_spec
      (show Compares Cell.val fun x y => Ordr.asc.lt x.val y.val from fun _ _ => rfl) hsize hsize' hidx hlen hn
    exact ⟨arr', hrun, hsorts.sorted, hsorts.pairs, hlength hsorts.pairs hsorts.length_eq, hsorts.length_eq⟩
  | dsc =>
    obtain ⟨arr', hrun, hsorts⟩ := qsortValIdx_spec
      (show Compares (fun x : Cell valtype.size => OrderDual.toDual x.val)
        fun x y => Ordr.dsc.lt x.val y.val from fun _ _ => rfl) hsize hsize' hidx hlen hn
    refine ⟨arr', hrun, ?_, hsorts.pairs, hlength hsorts.pairs hsorts.length_eq, hsorts.length_eq⟩
    have hsorted := hsorts.sorted
    rw [List.pairwise_map] at hsorted
    exact List.pairwise_map.mpr hsorted

/-- The values 2 and 1 with the indexes 10 and 20. -/
def twoPairs : SortArrays SortInt.I4.size Nat :=
  ⟨[10, 20], [fun k => if k.val = 0 then 2 else 0, fun k => if k.val = 0 then 1 else 0]⟩

theorem qsortOrdrValIdx_sorts_two :
    ∃ arr', qsortOrdrValIdx .asc .I4 .I8 twoPairs = some arr' ∧
      Ordr.asc.Sorted (arr'.pbase.map Cell.val) ∧
      (arr'.pbase.zip arr'.srtOrdr).Perm (twoPairs.pbase.zip twoPairs.srtOrdr) ∧
      arr'.pbase.length = twoPairs.pbase.length ∧ arr'.srtOrdr.length = arr'.pbase.length :=
  qsortOrdrValIdx_sorts .asc .I4 .I8 twoPairs rfl (by decide)

end Datacl
