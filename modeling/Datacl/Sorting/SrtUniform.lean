import Datacl.Approx.Frequent
import Datacl.Lib.CInt
import Datacl.Sorting.BinCounts
import Datacl.Sorting.QsortSorted

/-!
# Sorting in buckets: `tmpl_srt_uniform.c`

The elements are distributed over 64 buckets by the high bits of their unsigned image, and each bucket
is sorted by itself. The buckets stand in ascending order whatever the mode is, and in the unsigned
order the negative elements come last.
-/

namespace Datacl

open Buckets

/-! ### The function -/

/-- `NUM_THREADS` -/
def numThreads : Nat := 64

/-- `qsort_dsc_I4`. Integers have one descending arrangement, so any sort computes it. -/
def qsortDscI4 (buf : List Int) : List Int := buf.insertionSort (· ≥ ·)

/-- `inval >> shift`, as a number. -/
def bucket (shift : Nat) (x : Int) : Nat := (x % 2 ^ 32).toNat / 2 ^ shift

/-- `bin`, an `int`. A shift by 32 or more is undefined. -/
def binOf (shift : Nat) (x : Int) : Option Int :=
  if 32 ≤ shift then none else some (CInt.wrap 32 (bucket shift x))

/-- An element in the first loop, with `status` and `l_cnt`. -/
def countElt (shift : Nat) (s : Int × List Nat) (x : Int) : Option (Int × List Nat) := do
  let bin ← binOf shift x
  if numThreads ≤ bin then some (-1, s.2)
  else
    let lCnt ← bump s.2 bin
    some (s.1, lCnt)

/-- A thread of the first loop, with `status` and `t_cnt`. -/
def countThread (shift : Nat) (X : List Int) (s : Int × List (List Nat)) (tid : Nat) :
    Option (Int × List (List Nat)) := do
  let (status, lCnt) ← (threadSlice numThreads X tid).foldlM (countElt shift) (s.1, List.replicate numThreads 0)
  some (status, s.2 ++ [lCnt])

/-- An element in the second loop, with `Y` and `bin_offset`. -/
def placeElt (shift : Nat) (s : List Int × List Nat) (x : Int) : Option (List Int × List Nat) := do
  let bin ← binOf shift x
  placeAt bin x s

/-- A bin in the last loop, with `status` and `Y`. -/
def sortBin (mode : String) (s : Int × List Int) (bin : Nat × Nat) : Int × List Int :=
  let (offset, cnt) := bin
  let lY := (s.2.drop offset).take cnt
  if cnt = 0 then s
  else if mode = "asc" then (s.1, s.2.take offset ++ qsortAscI4 lY ++ s.2.drop (offset + cnt))
  else if mode = "dsc" then (s.1, s.2.take offset ++ qsortDscI4 lY ++ s.2.drop (offset + cnt))
  else (-1, s.2)

/-- `srt_uniform_I4`: the status and `Y`. `none` is an access outside of an array or an undefined
shift. -/
def srtUniform (X Y : List Int) (shift : Int) (mode : String) : Option (Int × List Int) :=
  if shift < 0 then some (-1, Y)
  else if X.length < 16 * 1048576 then some (-1, Y)
  else if mode ≠ "asc" ∧ mode ≠ "dsc" then some (-1, Y)
  else do
    let (status, tCnt) ← (List.range numThreads).foldlM (countThread shift.toNat X) (0, [])
    let cnt := sumCounts numThreads tCnt
    if cnt.sum ≠ X.length then some (-1, Y)
    else if 2 ^ 31 ≤ X.length then none -- the counter of this loop is an int
    else
      let (Y, _) ← X.foldlM (placeElt shift.toNat) (Y, binOffset 0 cnt)
      if status < 0 then some (status, Y)
      else some (((binOffset 0 cnt).zip cnt).foldl (sortBin mode) (status, Y))

lemma numThreads_pos : 0 < numThreads := by decide

/-! ### Bins -/

section

variable {shift : Nat} {x : Int} {X : List Int}

/-- The code finds the bin of the element. -/
def BinDefined (shift : Nat) (x : Int) : Prop := shift < 32 ∧ (shift = 0 → 0 ≤ x)

lemma bucket_lt (h : 0 < shift) (x : Int) : bucket shift x < 2 ^ 31 := by
  obtain ⟨s, rfl⟩ : ∃ s, shift = s + 1 := ⟨shift - 1, by omega⟩
  have hdiv : bucket (s + 1) x ≤ (x % 2 ^ 32).toNat / 2 :=
    Nat.div_le_div_left (Nat.le_self_pow (Nat.succ_ne_zero s) 2) two_pos
  omega

lemma bucket_zero (h0 : 0 ≤ x) (hx : x < 2 ^ 31) : (bucket 0 x : Int) = x := by
  rw [bucket, pow_zero, Nat.div_one]
  omega

lemma binOf_eq (h : BinDefined shift x) (hx : x < 2 ^ 31) :
    binOf shift x = some (bucket shift x : Int) := by
  have hlt : bucket shift x < 2 ^ 31 := by
    rcases Nat.eq_zero_or_pos shift with rfl | hpos
    · have hzero := bucket_zero (h.2 rfl) hx
      omega
    · exact bucket_lt hpos x
  rw [binOf, if_neg (by have := h.1; omega), CInt.wrap_of_lt (w := 31) (Int.natCast_nonneg _)]
  exact_mod_cast hlt

/-- Without a bin there is an undefined shift or a negative index. -/
lemma binOf_of_not (h : ¬ BinDefined shift x) (hx : -2 ^ 31 ≤ x) :
    binOf shift x = none ∨ ∃ bin, binOf shift x = some bin ∧ bin < 0 := by
  rcases Nat.lt_or_ge shift 32 with hlt | hge
  · right
    unfold BinDefined at h
    obtain ⟨rfl, hneg⟩ : shift = 0 ∧ x < 0 := by
      by_contra hcon
      exact h ⟨hlt, fun hzero => by omega⟩
    have himage : (bucket 0 x : Int) = x + 2 ^ 32 := by
      rw [bucket, pow_zero, Nat.div_one]
      omega
    refine ⟨_, if_neg (by omega), ?_⟩
    rw [himage, CInt.wrap_of_ge (w := 31) (by omega) (by omega)]
    omega
  · left
    rw [binOf, if_pos hge]

/-! ### Counting -/

/-- `l_cnt` after some elements. -/
def binCounts (shift : Nat) (xs : List Int) : List Nat :=
  (List.range numThreads).map fun b => (havingKey (bucket shift) xs b).length

lemma getElem?_binCounts (xs : List Int) {b : Nat} (hb : b < numThreads) :
    (binCounts shift xs)[b]? = some (havingKey (bucket shift) xs b).length := by
  rw [binCounts, List.getElem?_map, List.getElem?_range hb, Option.map_some]

lemma binCounts_nil (shift : Nat) : binCounts shift [] = List.replicate numThreads 0 := by
  apply List.ext_getElem <;> simp [binCounts, havingKey]

lemma length_havingKey_append (xs : List Int) (x : Int) (b : Nat) :
    (havingKey (bucket shift) (xs ++ [x]) b).length =
      Function.update (fun b => (havingKey (bucket shift) xs b).length) (bucket shift x)
        ((havingKey (bucket shift) xs (bucket shift x)).length + 1) b := by
  rw [havingKey_append_singleton]
  by_cases hb : b = bucket shift x
  · subst hb
    simp
  · simp [hb]

lemma countElt_binCounts (h : BinDefined shift x) (hx : x < 2 ^ 31) (status : Int) (done : List Int) :
    countElt shift (status, binCounts shift done) x =
      some (if bucket shift x < numThreads then status else -1, binCounts shift (done ++ [x])) := by
  rw [countElt, binOf_eq h hx, Option.bind_eq_bind, Option.bind_some]
  by_cases hlt : bucket shift x < numThreads
  · rw [if_neg (by omega), if_pos hlt, binCounts, bump_range _ hlt, Option.bind_eq_bind,
      Option.bind_some, binCounts]
    simp only [length_havingKey_append]
  · rw [if_pos (by omega), if_neg hlt]
    congr 2
    apply List.map_congr_left
    intro b hb
    rw [List.mem_range] at hb
    rw [length_havingKey_append, Function.update_of_ne (by omega)]

/-- The elements are in the range of an `int` and have a bin. -/
def AllBins (shift : Nat) (xs : List Int) : Prop := ∀ x ∈ xs, BinDefined shift x ∧ x < 2 ^ 31

/-- The status after some elements. -/
def binStatus (shift : Nat) (xs : List Int) (status : Int) : Int :=
  if ∀ x ∈ xs, bucket shift x < numThreads then status else -1

lemma binStatus_append (xs ys : List Int) (status : Int) :
    binStatus shift (xs ++ ys) status = binStatus shift ys (binStatus shift xs status) := by
  simp only [binStatus, List.forall_mem_append]
  split_ifs <;> tauto

lemma countElts_binCounts {xs : List Int} (h : AllBins shift xs) (status : Int) (done : List Int) :
    xs.foldlM (countElt shift) (status, binCounts shift done) =
      some (binStatus shift xs status, binCounts shift (done ++ xs)) := by
  induction xs generalizing status done with
  | nil => simp [binStatus]
  | cons x xs ih =>
    obtain ⟨hx, hxs⟩ := List.forall_mem_cons.mp h
    have hstatus : binStatus shift [x] status =
        if bucket shift x < numThreads then status else -1 := by
      simp [binStatus]
    rw [List.foldlM_cons, countElt_binCounts hx.1 hx.2, Option.bind_eq_bind, Option.bind_some,
      ih hxs, List.append_assoc, List.singleton_append, ← hstatus, ← binStatus_append,
      List.singleton_append]

/-! ### The threads -/

/-- The counts of the threads up to `n`. -/
lemma countThreads_eq (h : AllBins shift X) {n : Nat} (hn : n ≤ numThreads) :
    (List.range n).foldlM (countThread shift X) (0, []) =
      some (binStatus shift (joined (threadSlice numThreads X) n) 0,
        (List.range n).map fun tid => binCounts shift (threadSlice numThreads X tid)) := by
  induction n with
  | zero => simp [binStatus]
  | succ n ih =>
    have hslice : AllBins shift (threadSlice numThreads X n) := by
      intro x hx
      apply h
      rw [← joined_threadSlices X numThreads_pos]
      exact mem_joined.mpr ⟨n, by omega, hx⟩
    rw [List.range_succ, List.foldlM_append, ih (by omega), Option.bind_eq_bind, Option.bind_some,
      List.foldlM_cons, countThread, ← binCounts_nil shift, countElts_binCounts hslice,
      List.nil_append, ← binStatus_append, ← joined_succ, List.map_append]
    rfl

lemma sumCounts_eq (X : List Int) :
    sumCounts numThreads ((List.range numThreads).map fun tid => binCounts shift (threadSlice numThreads X tid)) =
      binCounts shift X := by
  apply List.map_congr_left
  intro b hb
  rw [List.mem_range] at hb
  rw [List.map_map]
  conv_rhs => rw [← joined_threadSlices X numThreads_pos, length_havingKey_joined]
  congr 1
  apply List.map_congr_left
  intro tid _
  rw [Function.comp_apply, List.getD_eq_getElem?_getD, getElem?_binCounts _ hb, Option.getD_some]

/-- The counts add up to the elements whose bin is less than `NUM_THREADS`. -/
lemma sum_binCounts (X : List Int) :
    (binCounts shift X).sum = (X.filter (bucket shift · < numThreads)).length := by
  have hsame : ∀ b < numThreads, havingKey (bucket shift) (X.filter (bucket shift · < numThreads)) b =
      havingKey (bucket shift) X b := by
    intro b hb
    rw [havingKey, List.filter_filter]
    apply List.filter_congr
    intro x _
    by_cases hx : bucket shift x = b <;> simp [hx, hb]
  have hkey : ∀ x ∈ X.filter (bucket shift · < numThreads), bucket shift x < numThreads :=
    fun x hx => by simpa using (List.mem_filter.mp hx).2
  have hperm := joined_havingKey_perm (bucket shift) hkey
  rw [joined_congr hsame] at hperm
  rw [← hperm.length_eq, joined, List.length_flatMap, binCounts]

lemma sum_binCounts_eq_iff (X : List Int) :
    (binCounts shift X).sum = X.length ↔ ∀ x ∈ X, bucket shift x < numThreads := by
  rw [sum_binCounts, List.length_filter_eq_length_iff]
  simp

/-! ### Placing -/

lemma binOffset_binCounts (X : List Int) :
    binOffset 0 (binCounts shift X) =
      (List.range numThreads).map (start (havingKey (bucket shift) X)) := by
  rw [binCounts, List.range_eq_range']
  exact binOffset_range (havingKey (bucket shift) X) numThreads 0

/-- The elements `done` stand at the front of their segments of `Y`. -/
def Segments (shift : Nat) (X done Y : List Int) : Prop :=
  ∃ g : Nat → List Int, Y = joined g numThreads ∧ ∀ b < numThreads,
    (g b).length = (havingKey (bucket shift) X b).length ∧
    (g b).take (havingKey (bucket shift) done b).length = havingKey (bucket shift) done b

/-- `bin_offset` after the elements `done`. -/
def offsetsAfter (shift : Nat) (X done : List Int) : List Nat :=
  (List.range numThreads).map fun b =>
    start (havingKey (bucket shift) X) b + (havingKey (bucket shift) done b).length

lemma offsetsAfter_append_singleton (X done : List Int) (x : Int) :
    offsetsAfter shift X (done ++ [x]) = (List.range numThreads).map
      (Function.update (fun b => start (havingKey (bucket shift) X) b +
          (havingKey (bucket shift) done b).length) (bucket shift x)
        (start (havingKey (bucket shift) X) (bucket shift x) +
          (havingKey (bucket shift) done (bucket shift x)).length + 1)) := by
  apply List.map_congr_left
  intro b _
  rw [length_havingKey_append]
  by_cases hb : b = bucket shift x
  · subst hb
    simp [Nat.add_assoc]
  · simp [hb]

/-- One element moves to its segment. -/
lemma placeElt_step {done rest Y : List Int} (h : Segments shift X done Y)
    (hX : X = done ++ x :: rest) (hdef : BinDefined shift x) (hx : x < 2 ^ 31)
    (hlt : bucket shift x < numThreads) :
    ∃ Y', placeElt shift (Y, offsetsAfter shift X done) x =
        some (Y', offsetsAfter shift X (done ++ [x])) ∧ Segments shift X (done ++ [x]) Y' := by
  obtain ⟨g, rfl, hseg⟩ := h
  obtain ⟨hlen, htake⟩ := hseg _ hlt
  have hroom : (havingKey (bucket shift) done (bucket shift x)).length <
      (g (bucket shift x)).length := by
    rw [hlen, hX, havingKey, havingKey, List.filter_append, List.length_append, List.filter_cons]
    simp
  have hstart : start (havingKey (bucket shift) X) (bucket shift x) = start g (bucket shift x) :=
    start_congr fun b hb => ((hseg b (hb.trans hlt)).1).symm
  have hin : start g (bucket shift x) + (havingKey (bucket shift) done (bucket shift x)).length <
      (joined g numThreads).length := by
    have := start_add_le g hlt
    rw [← start]
    omega
  rw [← hstart] at hin
  refine ⟨(joined g numThreads).set (start (havingKey (bucket shift) X) (bucket shift x) +
    (havingKey (bucket shift) done (bucket shift x)).length) x, ?_, ?_⟩
  · rw [placeElt, binOf_eq hdef hx, Option.bind_eq_bind, Option.bind_some, offsetsAfter_append_singleton,
      offsetsAfter]
    exact placeAt_range _ hlt hin x
  · rw [hstart, joined_set g hlt hroom]
    refine ⟨_, rfl, fun b hb => ?_⟩
    rw [havingKey_append_singleton]
    by_cases hbx : b = bucket shift x
    · subst hbx
      rw [Function.update_self, Function.update_self, List.length_set]
      refine ⟨hlen, ?_⟩
      rw [List.length_append, List.length_singleton, List.take_add_one, List.getElem?_set_self hroom,
        List.take_set_of_le le_rfl, htake]
      rfl
    · rw [Function.update_of_ne hbx, Function.update_of_ne hbx]
      exact hseg b hb

/-- The second loop. -/
lemma placeElts_run {done rest Y : List Int} (h : Segments shift X done Y) (hX : X = done ++ rest)
    (hall : AllBins shift X) (hlt : ∀ x ∈ X, bucket shift x < numThreads) :
    ∃ Y', rest.foldlM (placeElt shift) (Y, offsetsAfter shift X done) =
        some (Y', offsetsAfter shift X X) ∧ Segments shift X X Y' := by
  induction rest generalizing done Y with
  | nil =>
    rw [List.append_nil] at hX
    exact ⟨Y, by rw [hX]; rfl, hX ▸ h⟩
  | cons x rest ih =>
    have hmem : x ∈ X := by
      rw [hX]
      exact List.mem_append_right _ List.mem_cons_self
    obtain ⟨hdef, hx⟩ := hall x hmem
    obtain ⟨Y', hstep, h'⟩ := placeElt_step h hX hdef hx (hlt x hmem)
    obtain ⟨Y'', hrun, h''⟩ := ih h' (by rw [hX, List.append_assoc]; rfl)
    refine ⟨Y'', ?_, h''⟩
    rw [List.foldlM_cons, hstep, Option.bind_eq_bind, Option.bind_some, hrun]

/-- Behind the loop the bins stand in `Y` one after another. -/
lemma placeElts_eq {Y : List Int} (hY : Y.length = X.length) (hall : AllBins shift X)
    (hlt : ∀ x ∈ X, bucket shift x < numThreads) :
    X.foldlM (placeElt shift) (Y, binOffset 0 (binCounts shift X)) =
      some (joined (havingKey (bucket shift) X) numThreads, offsetsAfter shift X X) := by
  have hstart : binOffset 0 (binCounts shift X) = offsetsAfter shift X [] := by
    rw [binOffset_binCounts]
    rfl
  have hnil : Segments shift X [] Y := by
    obtain ⟨g, hg, hlen⟩ := exists_joined (havingKey (bucket shift) X) (n := numThreads)
      (hY.trans (joined_havingKey_perm _ hlt).length_eq.symm)
    exact ⟨g, hg, fun b hb => ⟨hlen b hb, rfl⟩⟩
  obtain ⟨Y', hrun, g, rfl, hseg⟩ := placeElts_run hnil (List.nil_append X).symm hall hlt
  have hfull : ∀ b < numThreads, g b = havingKey (bucket shift) X b := by
    intro b hb
    obtain ⟨hlen, htake⟩ := hseg b hb
    rwa [← hlen, List.take_length] at htake
  rw [hstart, hrun, joined_congr hfull]

/-! ### Sorting -/

/-- The sort of a mode. -/
def Ordr.qsortI4 : Ordr → List Int → List Int
  | .asc => qsortAscI4
  | .dsc => qsortDscI4

/-- `mode` -/
def Ordr.mode : Ordr → String
  | .asc => "asc"
  | .dsc => "dsc"

lemma Ordr.qsortI4_perm (ordr : Ordr) (xs : List Int) : (ordr.qsortI4 xs).Perm xs := by
  cases ordr with
  | asc => exact xs.perm_insertionSort _
  | dsc => exact xs.perm_insertionSort _

lemma sortBin_eq (ordr : Ordr) (status : Int) (Y : List Int) (offset cnt : Nat) :
    sortBin ordr.mode (status, Y) (offset, cnt) =
      (status, if cnt = 0 then Y else
        Y.take offset ++ ordr.qsortI4 ((Y.drop offset).take cnt) ++ Y.drop (offset + cnt)) := by
  cases ordr <;> unfold sortBin <;> split_ifs <;> simp_all [Ordr.mode, Ordr.qsortI4]

/-- To sort segment `n` in its place. -/
lemma sortBin_joined (ordr : Ordr) (status : Int) (g : Nat → List Int) {m n : Nat} (hn : n < m) :
    sortBin ordr.mode (status, joined g m) (start g n, (g n).length) =
      (status, joined (Function.update g n (ordr.qsortI4 (g n))) m) := by
  rw [sortBin_eq, joined_slice g hn, joined_update g hn]
  split
  next hzero =>
    have hnil := List.eq_nil_of_length_eq_zero hzero
    have hsort : ordr.qsortI4 (g n) = g n := by
      rw [hnil]
      exact (ordr.qsortI4_perm []).eq_nil
    rw [hsort, Function.update_eq_self]
  next => rfl

/-- The bins up to `n` are in order. -/
lemma sortBins_eq (ordr : Ordr) (f : Nat → List Int) (status : Int) {m n : Nat} (hn : n ≤ m) :
    ((List.range n).map fun b => (start f b, (f b).length)).foldl (sortBin ordr.mode)
        (status, joined f m) =
      (status, joined (fun b => if b < n then ordr.qsortI4 (f b) else f b) m) := by
  induction n with
  | zero => simp
  | succ n ih =>
    rw [List.range_succ, List.map_append, List.foldl_append, ih (by omega), List.map_singleton,
      List.foldl_cons, List.foldl_nil]
    have hstart : start f n = start (fun b => if b < n then ordr.qsortI4 (f b) else f b) n := by
      apply start_congr
      intro b hb
      rw [if_pos hb]
      exact (ordr.qsortI4_perm _).length_eq.symm
    have hself : f n = if n < n then ordr.qsortI4 (f n) else f n := by
      rw [if_neg (Nat.lt_irrefl n)]
    have hstep := sortBin_joined ordr status
      (fun b => if b < n then ordr.qsortI4 (f b) else f b) (Nat.lt_of_succ_le hn)
    rw [← hstart, ← hself] at hstep
    rw [hstep]
    congr 2
    funext b
    by_cases hb : b = n
    · subst hb
      rw [Function.update_self, if_pos (Nat.lt_succ_self b)]
    · rw [Function.update_of_ne hb]
      simp only [show b < n + 1 ↔ b < n by omega]

/-- With a bin for every element the call gives up or sorts the bins. -/
lemma srtUniform_eq {Y : List Int} (ordr : Ordr) (hlen : 16777216 ≤ X.length)
    (hint : X.length < 2 ^ 31) (hY : Y.length = X.length) (hall : AllBins shift X) :
    srtUniform X Y shift ordr.mode =
      some (if ∀ x ∈ X, bucket shift x < numThreads then
        (0, joined (fun b => ordr.qsortI4 (havingKey (bucket shift) X b)) numThreads) else (-1, Y)) := by
  have hmode : ¬ (ordr.mode ≠ "asc" ∧ ordr.mode ≠ "dsc") := by
    cases ordr <;> decide
  rw [srtUniform, if_neg (by omega), if_neg (by omega), if_neg hmode, Int.toNat_natCast,
    countThreads_eq hall le_rfl, Option.bind_eq_bind, Option.bind_some,
    joined_threadSlices X numThreads_pos]
  dsimp only
  rw [sumCounts_eq]
  by_cases hlt : ∀ x ∈ X, bucket shift x < numThreads
  · have hzip : (binOffset 0 (binCounts shift X)).zip (binCounts shift X) =
        (List.range numThreads).map fun b =>
          (start (havingKey (bucket shift) X) b, (havingKey (bucket shift) X b).length) := by
      rw [binOffset_binCounts, binCounts, List.zip_map']
    have hstatus : binStatus shift X 0 = 0 := if_pos hlt
    rw [if_neg (not_not.mpr ((sum_binCounts_eq_iff X).mpr hlt)), if_neg (not_le.mpr hint),
      placeElts_eq hY hall hlt, Option.bind_eq_bind, Option.bind_some, hstatus, if_neg (lt_irrefl _), hzip,
      sortBins_eq ordr _ _ le_rfl, if_pos hlt, joined_congr fun b hb => if_pos hb]
  · rw [if_pos (mt (sum_binCounts_eq_iff X).mp hlt), if_neg hlt]

/-- An element without a bin. -/
lemma srtUniform_eq_none {Y : List Int} (ordr : Ordr) (hlen : 16777216 ≤ X.length)
    (hrange : ∀ x ∈ X, -2 ^ 31 ≤ x) (hall : ∃ x ∈ X, ¬ BinDefined shift x) :
    srtUniform X Y shift ordr.mode = none := by
  obtain ⟨x, hmem, hx⟩ := hall
  have hmode : ¬ (ordr.mode ≠ "asc" ∧ ordr.mode ≠ "dsc") := by
    cases ordr <;> decide
  have helt (s : Int × List Nat) : countElt shift s x = none := by
    rcases binOf_of_not hx (hrange x hmem) with hnone | ⟨bin, hbin, hneg⟩
    · rw [countElt, hnone]
      rfl
    · have hsmall : ¬ (numThreads : Int) ≤ bin := by omega
      rw [countElt, hbin, Option.bind_eq_bind, Option.bind_some, if_neg hsmall, bump_of_neg _ hneg]
      rfl
  obtain ⟨tid, htid, hslice⟩ := mem_threadSlice numThreads_pos hmem
  have hthread (s : Int × List (List Nat)) : countThread shift X s tid = none := by
    rw [countThread, foldlM_eq_none hslice helt]
    rfl
  rw [srtUniform, if_neg (by omega), if_neg (by omega), if_neg hmode, Int.toNat_natCast,
    foldlM_eq_none (List.mem_range.mpr htid) hthread, Option.bind_eq_bind, Option.bind_none]

end

end Datacl
