import Datacl.Approx.Frequent
import Datacl.Sorting.BinCounts
import Mathlib.Data.List.Sort

/-!
# Sorting with given bins: `tmpl_par_sort_with_bins.c`

The elements are counted into `bin_cnt`, but the counts are then overwritten with the sums of
`part_bin_cnt`, in which nothing was counted. So every bin begins at 0, the bins overwrite each other
and no bin is sorted.
-/

namespace Datacl

open Buckets

/-! ### The function -/

/-- The loop of `get_bin`, from bin `b` on. Behind it `*ptr_b` is not set. -/
def firstBin (inval : Int) : Nat → List Int → Option Nat
  | _, [] => none
  | b, u :: ub => if inval < u then some b else firstBin inval (b + 1) ub

/-- `get_bin` -/
def getBin (inval : Int) (lb ub : List Int) : Option Nat := do
  let lb0 ← lb[0]?
  if inval ≤ lb0 then some 0
  else
    let last ← ub[lb.length - 1]?
    if last ≤ inval then some (lb.length - 1) else firstBin inval 0 ub

/-- An element in the first loop, with `bin_idx`, whose entries are `unsigned short`, and `bin_cnt`. -/
def binElt (lb ub : List Int) (s : List Nat × List Nat) (inval : Int) :
    Option (List Nat × List Nat) := do
  let b ← getBin inval lb ub
  let binCnt ← bump s.2 b
  some (s.1 ++ [b % 65536], binCnt)

/-- A bin in the last loop. `qsortAsc` sorts so many elements from so many bytes behind the start of
`out`; without elements it returns at once. -/
def sortBinAt (qsortAsc : Nat → Nat → List Int → List Int) (out : List Int) (bin : Nat × Nat) :
    List Int :=
  let (offset, cnt) := bin
  if cnt = 0 then out else qsortAsc (4 * (offset - cnt)) cnt out

/-- `par_sort_with_bins` with `num_bins` the length of `binlb`: the status and `out`. `none` is an
access outside of an array. -/
def parSortWithBins (qsortAsc : Nat → Nat → List Int → List Int) (inp lb ub : List Int) (nT : Nat)
    (out : List Int) : Option (Int × List Int) :=
  let numBins := lb.length
  if 65536 < numBins then some (-1, out)
  else if nT < 1 then some (-1, out)
  else if inp.length < nT then some (-1, out)
  else do
    let (binIdx, _) ← (List.range nT).foldlM
      (fun s tid => (threadSlice nT inp tid).foldlM (binElt lb ub) s)
      ([], List.replicate numBins 0)
    let partBinCnt := List.replicate nT (List.replicate numBins 0)
    let binCnt := sumCounts numBins partBinCnt
    let (out, offsets) ← (inp.zip binIdx).foldlM (fun s e => placeAt e.2 e.1 s)
      (out, binOffset 0 binCnt)
    some (0, (offsets.zip binCnt).foldl (sortBinAt qsortAsc) out)

/-! ### Bins -/

/-- Bins with ascending bounds, each of which begins where the one before ends. -/
structure Bins where
  lb : List Int
  ub : List Int
  length_eq : ub.length = lb.length
  ascending : ∀ (b : Nat) (l u : Int), lb[b]? = some l → ub[b]? = some u → l ≤ u
  meet : ∀ b : Nat, b + 1 < lb.length → ub[b]? = lb[b + 1]?

/-- The element goes to bin `c` or to one before. -/
def Bins.Below (bins : Bins) (c : Nat) (v : Int) : Prop :=
  v ≤ bins.lb.getD 0 0 ∨ v < bins.ub.getD c 0

section

variable {bins : Bins} {v : Int} {b c : Nat}

lemma Bins.ub_le_ub (hbc : b ≤ c) {u w : Int} (hu : bins.ub[b]? = some u)
    (hw : bins.ub[c]? = some w) : u ≤ w := by
  induction c, hbc using Nat.le_induction generalizing w with
  | base =>
    rw [hu, Option.some_inj] at hw
    exact hw.le
  | succ c hbc ih =>
    have hc : c + 1 < bins.lb.length := by
      rw [← bins.length_eq]
      exact (List.getElem?_eq_some_iff.mp hw).1
    have hmeet := bins.meet c hc
    have hl := List.getElem?_eq_getElem hc
    rw [hl] at hmeet
    exact (ih hmeet).trans (bins.ascending (c + 1) _ _ hl hw)

/-- The loop finds the first bin with a greater upper bound. -/
lemma firstBin_spec {ub : List Int} (h : ∃ u ∈ ub, v < u) (b : Nat) :
    ∃ c, firstBin v b ub = some (b + c) ∧ (∃ u, ub[c]? = some u ∧ v < u) ∧
      ∀ d < c, ∃ u, ub[d]? = some u ∧ u ≤ v := by
  induction ub generalizing b with
  | nil =>
    obtain ⟨u, hu, -⟩ := h
    cases hu
  | cons u ub ih =>
    rw [firstBin]
    by_cases hv : v < u
    · refine ⟨0, if_pos hv, ⟨u, rfl, hv⟩, fun d hd => absurd hd (Nat.not_lt_zero d)⟩
    · have htail : ∃ u ∈ ub, v < u := by
        obtain ⟨w, hw, hvw⟩ := h
        rcases List.mem_cons.mp hw with rfl | hw
        · exact absurd hvw hv
        · exact ⟨w, hw, hvw⟩
      obtain ⟨c, hrun, hc, hlow⟩ := ih htail (b + 1)
      refine ⟨c + 1, ?_, hc, ?_⟩
      · rw [if_neg hv, hrun, Nat.add_assoc, Nat.add_comm 1 c]
      · intro d hd
        cases d with
        | zero => exact ⟨u, rfl, not_lt.mp hv⟩
        | succ d => exact hlow d (by omega)

/-- Every element has a bin. -/
lemma Bins.getBin_spec (bins : Bins) (hpos : 0 < bins.lb.length) (v : Int) :
    ∃ b < bins.lb.length, getBin v bins.lb bins.ub = some b ∧
      ∀ c, c + 1 < bins.lb.length → (bins.Below c v ↔ b ≤ c) := by
  have hlen := bins.length_eq
  obtain ⟨l, hl⟩ : ∃ l, bins.lb[0]? = some l := ⟨_, List.getElem?_eq_getElem hpos⟩
  obtain ⟨last, hlast⟩ : ∃ last, bins.ub[bins.lb.length - 1]? = some last :=
    ⟨_, List.getElem?_eq_getElem (by omega)⟩
  have hbelow {c : Nat} {u : Int} (hu : bins.ub[c]? = some u) : bins.Below c v ↔ v ≤ l ∨ v < u := by
    rw [Bins.Below, List.getD_eq_getElem?_getD, List.getD_eq_getElem?_getD, hl, hu, Option.getD_some,
      Option.getD_some]
  have hub {c : Nat} (hc : c + 1 < bins.lb.length) : ∃ u, bins.ub[c]? = some u :=
    ⟨_, List.getElem?_eq_getElem (by omega)⟩
  rw [getBin, hl, Option.bind_eq_bind, Option.bind_some]
  by_cases hv : v ≤ l
  · refine ⟨0, hpos, if_pos hv, fun c hc => ?_⟩
    obtain ⟨u, hu⟩ := hub hc
    rw [hbelow hu]
    exact iff_of_true (Or.inl hv) (Nat.zero_le c)
  · rw [if_neg hv, hlast, Option.bind_some]
    by_cases hv' : last ≤ v
    · refine ⟨bins.lb.length - 1, by omega, if_pos hv', fun c hc => ?_⟩
      obtain ⟨u, hu⟩ := hub hc
      have hle := Bins.ub_le_ub (by omega) hu hlast
      rw [hbelow hu]
      exact iff_of_false (by omega) (by omega)
    · obtain ⟨b, hrun, ⟨w, hw, hvw⟩, hlow⟩ := firstBin_spec
        ⟨last, List.mem_of_getElem? hlast, not_le.mp hv'⟩ 0
      rw [Nat.zero_add] at hrun
      have hb := (List.getElem?_eq_some_iff.mp hw).1
      refine ⟨b, by omega, by rw [if_neg hv', hrun], fun c hc => ?_⟩
      obtain ⟨u, hu⟩ := hub hc
      rw [hbelow hu]
      constructor
      · intro hlt
        by_contra hcb
        obtain ⟨u', hu', hle⟩ := hlow c (not_le.mp hcb)
        rw [hu, Option.some_inj] at hu'
        omega
      · intro hbc
        have hle := Bins.ub_le_ub hbc hw hu
        exact Or.inr (hvw.trans_le hle)

/-- The bin of an element. -/
def Bins.bin (bins : Bins) (v : Int) : Nat := (getBin v bins.lb bins.ub).getD 0

lemma Bins.bin_spec (bins : Bins) (hpos : 0 < bins.lb.length) (v : Int) :
    getBin v bins.lb bins.ub = some (bins.bin v) ∧ bins.bin v < bins.lb.length ∧
      ∀ c, c + 1 < bins.lb.length → (bins.Below c v ↔ bins.bin v ≤ c) := by
  obtain ⟨b, hb, hrun, hbelow⟩ := bins.getBin_spec hpos v
  have hbin : bins.bin v = b := by rw [Bins.bin, hrun, Option.getD_some]
  rw [hbin]
  exact ⟨hrun, hb, hbelow⟩

/-- Elements are in one bin if no bound between two bins separates them. -/
lemma Bins.same_bin_iff (bins : Bins) (hpos : 0 < bins.lb.length) {vals : List Int} :
    (∀ v ∈ vals, ∀ w ∈ vals, bins.bin v = bins.bin w) ↔
      ∀ c, c + 1 < bins.lb.length →
        (∀ v ∈ vals, bins.Below c v) ∨ ∀ v ∈ vals, ¬ bins.Below c v := by
  constructor
  · intro h c hc
    by_contra hsep
    push Not at hsep
    obtain ⟨⟨v, hv, hvc⟩, w, hw, hwc⟩ := hsep
    rw [(bins.bin_spec hpos v).2.2 c hc] at hvc
    rw [(bins.bin_spec hpos w).2.2 c hc] at hwc
    exact hvc (h v hv w hw ▸ hwc)
  · intro h
    have hle {v w : Int} (hv : v ∈ vals) (hw : w ∈ vals) : bins.bin w ≤ bins.bin v := by
      by_contra hlt
      have hc : bins.bin v + 1 < bins.lb.length := by
        have := (bins.bin_spec hpos w).2.1
        omega
      have hvb := ((bins.bin_spec hpos v).2.2 _ hc).mpr le_rfl
      rcases h _ hc with hall | hnone
      · exact hlt (((bins.bin_spec hpos w).2.2 _ hc).mp (hall w hw))
      · exact hnone v hv hvb
    intro v hv w hw
    exact le_antisymm (hle hw hv) (hle hv hw)

/-! ### The first loop -/

lemma binElt_range (hpos : 0 < bins.lb.length) (hmax : bins.lb.length ≤ 65536) (idx : List Nat)
    (f : Nat → Nat) (x : Int) :
    binElt bins.lb bins.ub (idx, (List.range bins.lb.length).map f) x =
      some (idx ++ [bins.bin x],
        (List.range bins.lb.length).map (Function.update f (bins.bin x) (f (bins.bin x) + 1))) := by
  obtain ⟨hrun, hlt, -⟩ := bins.bin_spec hpos x
  have hmod : bins.bin x % 65536 = bins.bin x := Nat.mod_eq_of_lt (by omega)
  rw [binElt, hrun, Option.bind_eq_bind, Option.bind_some, bump_range f hlt, Option.bind_eq_bind,
    Option.bind_some, hmod]

/-- The counts have a value for every bin. -/
lemma binElts_run (hpos : 0 < bins.lb.length) (hmax : bins.lb.length ≤ 65536) (xs : List Int)
    (idx : List Nat) (f : Nat → Nat) :
    ∃ g : Nat → Nat,
      xs.foldlM (binElt bins.lb bins.ub) (idx, (List.range bins.lb.length).map f) =
        some (idx ++ xs.map bins.bin, (List.range bins.lb.length).map g) := by
  induction xs generalizing idx f with
  | nil => exact ⟨f, by simp⟩
  | cons x xs ih =>
    obtain ⟨g, hg⟩ := ih (idx ++ [bins.bin x])
      (Function.update f (bins.bin x) (f (bins.bin x) + 1))
    refine ⟨g, ?_⟩
    rw [List.foldlM_cons, binElt_range hpos hmax, Option.bind_eq_bind, Option.bind_some, hg,
      List.append_assoc, List.map_cons, List.singleton_append]

/-- The threads up to `n`, one after another. -/
lemma binThreads_run (hpos : 0 < bins.lb.length) (hmax : bins.lb.length ≤ 65536) (nT : Nat)
    (inp : List Int) (n : Nat) :
    ∃ g : Nat → Nat,
      (List.range n).foldlM
          (fun s tid => (threadSlice nT inp tid).foldlM (binElt bins.lb bins.ub) s)
          ([], List.replicate bins.lb.length 0) =
        some ((joined (threadSlice nT inp) n).map bins.bin, (List.range bins.lb.length).map g) := by
  induction n with
  | zero => exact ⟨fun _ => 0, by simp⟩
  | succ n ih =>
    obtain ⟨g, hg⟩ := ih
    obtain ⟨g', hg'⟩ := binElts_run hpos hmax (threadSlice nT inp n)
      ((joined (threadSlice nT inp) n).map bins.bin) g
    refine ⟨g', ?_⟩
    rw [List.range_succ, List.foldlM_append, hg, Option.bind_eq_bind, Option.bind_some,
      List.foldlM_cons, hg', Option.bind_eq_bind, Option.bind_some, List.foldlM_nil, joined_succ,
      List.map_append]
    rfl

/-! ### The offsets -/

/-- Nothing was counted in `part_bin_cnt`. -/
lemma sumCounts_zero (n nT : Nat) :
    sumCounts n (List.replicate nT (List.replicate n 0)) = List.replicate n 0 := by
  have hzero (b : Nat) : (List.replicate n 0).getD b 0 = 0 := by
    rw [List.getD_eq_getElem?_getD, List.getElem?_replicate]
    split_ifs <;> rfl
  rw [sumCounts, List.eq_replicate_iff]
  refine ⟨by rw [List.length_map, List.length_range], fun c hc => ?_⟩
  obtain ⟨b, -, rfl⟩ := List.mem_map.mp hc
  rw [List.map_replicate, hzero, List.sum_replicate, smul_zero]

lemma binOffset_zero (n : Nat) : binOffset 0 (List.replicate n 0) = List.replicate n 0 := by
  induction n with
  | zero => rfl
  | succ n ih => rw [List.replicate_succ, binOffset, ih]

/-- Bins without elements are not sorted. -/
lemma sortBinsAt_zero (qsortAsc : Nat → Nat → List Int → List Int) (out : List Int)
    (offsets : List Nat) (n : Nat) :
    (offsets.zip (List.replicate n 0)).foldl (sortBinAt qsortAsc) out = out := by
  induction n generalizing offsets with
  | zero => simp
  | succ n ih =>
    cases offsets with
    | nil => rfl
    | cons offset offsets =>
      rw [List.replicate_succ, List.zip_cons_cons, List.foldl_cons, sortBinAt, if_pos rfl]
      exact ih offsets

/-! ### The second loop -/

/-- `out'` is `out` with the elements `done` put at the offsets of their bins, each from 0 on. -/
structure PlacesFromZero (key : Int → Nat) (done out out' : List Int) : Prop where
  length_eq : out'.length = out.length
  untouched : ∀ j : Nat, (∀ b, (havingKey key done b).length ≤ j) → out'[j]? = out[j]?
  oneBin : ∀ c, (∀ v ∈ done, key v = c) → out'.take done.length = done

lemma PlacesFromZero.step {key : Int → Nat} {done out out' : List Int}
    (h : PlacesFromZero key done out out') (hlen : done.length < out.length) (x : Int) :
    PlacesFromZero key (done ++ [x]) out (out'.set (havingKey key done (key x)).length x) where
  length_eq := by rw [List.length_set, h.length_eq]
  untouched j hj := by
    have hne : (havingKey key done (key x)).length ≠ j := by
      have hx := hj (key x)
      rw [havingKey_append_singleton, Function.update_self, List.length_append,
        List.length_singleton] at hx
      omega
    rw [List.getElem?_set_ne hne]
    apply h.untouched
    intro b
    refine le_trans ?_ (hj b)
    rw [havingKey, havingKey, List.filter_append, List.length_append]
    exact Nat.le_add_right _ _
  oneBin c hc := by
    have hdone : ∀ v ∈ done, key v = c := fun v hv => hc v (List.mem_append_left _ hv)
    have hx : key x = c := hc x (List.mem_append_right _ (List.mem_singleton_self x))
    have hall : havingKey key done (key x) = done := by
      rw [havingKey, List.filter_eq_self]
      intro v hv
      rw [hx, hdone v hv]
      exact decide_eq_true rfl
    rw [hall, List.length_append, List.length_singleton, List.take_add_one,
      List.getElem?_set_self (by rw [h.length_eq]; exact hlen), List.take_set_of_le le_rfl,
      h.oneBin c hdone]
    rfl

/-- The loop writes inside of `out`. -/
lemma PlacesFromZero.run {key : Int → Nat} {n : Nat} {done rest out out' : List Int}
    (h : PlacesFromZero key done out out') (hlen : (done ++ rest).length = out.length)
    (hkey : ∀ v ∈ rest, key v < n) :
    ∃ out'' offsets, rest.foldlM (fun s v => placeAt (key v) v s)
        (out', (List.range n).map fun b => (havingKey key done b).length) = some (out'', offsets) ∧
      PlacesFromZero key (done ++ rest) out out'' := by
  induction rest generalizing done out' with
  | nil => exact ⟨out', _, rfl, by rwa [List.append_nil]⟩
  | cons x rest ih =>
    obtain ⟨hx, hrest⟩ := List.forall_mem_cons.mp hkey
    rw [List.length_append, List.length_cons] at hlen
    have hcount : (havingKey key done (key x)).length ≤ done.length := List.length_filter_le _ _
    have hin : (havingKey key done (key x)).length < out'.length := by
      rw [h.length_eq]
      omega
    have hoffsets : (List.range n).map (Function.update (fun b => (havingKey key done b).length) (key x)
        ((havingKey key done (key x)).length + 1)) =
        (List.range n).map fun b => (havingKey key (done ++ [x]) b).length := by
      apply List.map_congr_left
      intro b _
      rw [havingKey_append_singleton]
      by_cases hb : b = key x
      · subst hb
        simp
      · simp [hb]
    obtain ⟨out'', offsets, hrun, hout⟩ := ih (h.step (by omega) x)
      (by rw [List.append_assoc, List.length_append, List.length_append, List.length_singleton]; omega)
      hrest
    rw [List.append_assoc, List.singleton_append] at hout
    refine ⟨out'', offsets, ?_, hout⟩
    rw [List.foldlM_cons, placeAt_range _ hx hin, hoffsets, Option.bind_eq_bind, Option.bind_some,
      hrun]

/-! ### The call -/

/-- With at least one bin the call returns 0 with what the second loop has left in `out`. -/
lemma parSortWithBins_eq (qsortAsc : Nat → Nat → List Int → List Int) {inp out : List Int} {nT : Nat}
    (hpos : 0 < bins.lb.length) (hmax : bins.lb.length ≤ 65536) (hnT : 1 ≤ nT)
    (hnR : nT ≤ inp.length) (hout : out.length = inp.length) :
    ∃ out', parSortWithBins qsortAsc inp bins.lb bins.ub nT out = some (0, out') ∧
      PlacesFromZero bins.bin inp out out' := by
  obtain ⟨g, hthreads⟩ := binThreads_run hpos hmax nT inp nT
  have hzip : inp.zip (inp.map bins.bin) = inp.map fun v => (v, bins.bin v) := by
    rw [← List.zip_map' (f := fun v => v), List.map_id']
  have hzeros : List.replicate bins.lb.length 0 =
      (List.range bins.lb.length).map fun b => (havingKey bins.bin [] b).length := by
    simp only [havingKey_nil]
    simp
  have hstart : PlacesFromZero bins.bin [] out out := ⟨rfl, fun _ _ => rfl, fun _ _ => rfl⟩
  have hkey : ∀ v ∈ inp, bins.bin v < bins.lb.length := fun v _ => (bins.bin_spec hpos v).2.1
  obtain ⟨out', offsets, hrun, hover⟩ := hstart.run (by rw [List.nil_append, hout]) hkey
  refine ⟨out', ?_, hover⟩
  rw [parSortWithBins, if_neg (by omega), if_neg (by omega), if_neg (by omega), hthreads,
    Option.bind_eq_bind, Option.bind_some, joined_threadSlices inp hnT]
  dsimp only
  rw [sumCounts_zero, binOffset_zero, hzip, List.foldlM_map, hzeros, hrun, Option.bind_eq_bind,
    Option.bind_some, ← hzeros]
  dsimp only
  rw [sortBinsAt_zero]

/-- Without a bin the call reads outside of `binlb`. -/
lemma parSortWithBins_eq_none (qsortAsc : Nat → Nat → List Int → List Int) {inp out : List Int}
    {nT : Nat} (hzero : bins.lb.length = 0) (hnT : 1 ≤ nT) (hnR : nT ≤ inp.length) :
    parSortWithBins qsortAsc inp bins.lb bins.ub nT out = none := by
  obtain ⟨x, hx⟩ := List.exists_mem_of_length_pos (show 0 < inp.length by omega)
  obtain ⟨tid, htid, hslice⟩ := mem_threadSlice hnT hx
  have helt (s : List Nat × List Nat) : binElt bins.lb bins.ub s x = none := by
    rw [binElt, getBin, List.getElem?_eq_none hzero.le]
    rfl
  rw [parSortWithBins, if_neg (by omega), if_neg (by omega), if_neg (by omega),
    foldlM_eq_none (List.mem_range.mpr htid) (fun s => foldlM_eq_none hslice helt s),
    Option.bind_eq_bind, Option.bind_none]

end

/-- The call returns 0 and writes only into `out`, which is the input in ascending order then, whatever
was in `out` before. -/
def ParSortSorts (qsortAsc : Nat → Nat → List Int → List Int) (inp : List Int) (bins : Bins)
    (nT : Nat) : Prop :=
  ∀ out : List Int, out.length = inp.length →
    ∃ out', parSortWithBins qsortAsc inp bins.lb bins.ub nT out = some (0, out') ∧
      out'.Perm inp ∧ out'.Pairwise (· ≤ ·)

/-- Elements of two bins leave the end of `out` as it was. -/
lemma PlacesFromZero.last {key : Int → Nat} {inp out out' : List Int} (h : PlacesFromZero key inp out out')
    (hne : ¬ ∀ v ∈ inp, ∀ w ∈ inp, key v = key w) :
    out'[inp.length - 1]? = out[inp.length - 1]? := by
  push Not at hne
  obtain ⟨v, hv, w, hw, hvw⟩ := hne
  apply h.untouched
  intro b
  have hlt : (havingKey key inp b).length < inp.length := by
    rw [havingKey, List.length_filter_lt_length_iff_exists]
    by_cases hb : key v = b
    · refine ⟨w, hw, ?_⟩
      simp [← hb, Ne.symm hvw]
    · exact ⟨v, hv, by simp [hb]⟩
  omega

/-- Elements of one bin stand in `out` as they came. -/
lemma PlacesFromZero.eq_of_same {key : Int → Nat} {inp out out' : List Int}
    (h : PlacesFromZero key inp out out') (hlen : out.length = inp.length)
    (hsame : ∀ v ∈ inp, ∀ w ∈ inp, key v = key w) : out' = inp := by
  have htake : out'.take inp.length = inp := by
    cases inp with
    | nil => rfl
    | cons v inp => exact h.oneBin (key v) fun w hw => hsame w hw v List.mem_cons_self
  rwa [← hlen, ← h.length_eq, List.take_length] at htake

/-- A call that sorts whatever was in `out` has one bin: with several the end of `out` keeps what was
there, and two fillings would give two sorted arrangements. -/
lemma ParSortSorts.same_bin {qsortAsc : Nat → Nat → List Int → List Int} {inp : List Int}
    {bins : Bins} {nT : Nat} (h : ParSortSorts qsortAsc inp bins nT) (hpos : 0 < bins.lb.length)
    (hmax : bins.lb.length ≤ 65536) (hnT : 1 ≤ nT) (hnR : nT ≤ inp.length) :
    ∀ v ∈ inp, ∀ w ∈ inp, bins.bin v = bins.bin w := by
  by_contra hne
  have hend (c : Int) : ∃ out' : List Int, out'.Perm inp ∧ out'.Pairwise (· ≤ ·) ∧
      out'[inp.length - 1]? = some c := by
    have hlen : (List.replicate inp.length c).length = inp.length := List.length_replicate
    obtain ⟨out', hrun, hperm, hsorted⟩ := h _ hlen
    obtain ⟨out'', hrun', hover⟩ := parSortWithBins_eq qsortAsc hpos hmax hnT hnR hlen
    rw [hrun, Option.some_inj, Prod.mk.injEq] at hrun'
    refine ⟨out', hperm, hsorted, ?_⟩
    rw [hrun'.2, hover.last hne, List.getElem?_replicate, if_pos (by omega)]
  obtain ⟨out₀, hperm₀, hsorted₀, hlast₀⟩ := hend 0
  obtain ⟨out₁, hperm₁, hsorted₁, hlast₁⟩ := hend 1
  rw [(hperm₀.trans hperm₁.symm).eq_of_pairwise' hsorted₀ hsorted₁, hlast₁] at hlast₀
  cases hlast₀

/-- `qsort_asc_I4` for `cnt` elements from byte `pos` of the array on. -/
def qsortAscI4At (pos cnt : Nat) (out : List Int) : List Int :=
  out.take (pos / 4) ++ qsortAscI4 ((out.drop (pos / 4)).take cnt) ++ out.drop (pos / 4 + cnt)

/-- The bins from 0 to 10 and from 10 to 20. -/
def twoBins : Bins where
  lb := [0, 10]
  ub := [10, 20]
  length_eq := rfl
  ascending := by
    intro b l u hl hu
    match b with
    | 0 | 1 =>
      cases hl
      cases hu
      decide
    | b + 2 => cases hl
  meet := by
    intro b hb
    match b with
    | 0 => rfl
    | b + 1 => exact absurd hb (by simp)

end Datacl
