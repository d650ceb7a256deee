import Datacl.Approx.QuantileScan
import Datacl.Lib.Binary64

/-!
# Which slots `Output` fills

`Output` with the target ranks in doubles, as the source computes them. An element equal to
`INT_MAX` is never found, so it and the slots that need it are left out; and a product or
quotient that does not fit a double may move a target rank to another element.
-/

namespace Datacl
open RankPick (unroll handOut)

/-- `(long long)ceil((jj+1)*(double)siz/num_quantiles)`. A value that does not fit the `long long`
stands for the undefined conversion; it exceeds every `siz`. -/
def nextQuantileRank (siz numQuantiles jj : Nat) : Nat :=
  ⌈Binary64.round (Binary64.round (Binary64.round (jj + 1 : ℕ) * Binary64.round siz) /
    Binary64.round numQuantiles)⌉₊

/-- The arrays `Output` reads: the first `k` elements of each buffer and, if the flag is 1, the
last packet with weight 1. -/
def outputReads (bufs : List Buffer) (lastPacket : List Int) (lastPacketIncomplete : Int)
    (k : Nat) : List Cursor :=
  bufs.map (fun b => ⟨b.weight, b.elems.take k⟩) ++
    if lastPacketIncomplete = 1 then [⟨1, lastPacket⟩] else []

/-- `Output`; the result is what it writes to `ptr_y[0]`, `ptr_y[1]`, ... and `none` is the
error exit. -/
def outputRun (bufs : List Buffer) (lastPacket : List Int) (lastPacketIncomplete : Int)
    (siz numQuantiles k : Nat) : Option (List Int) :=
  let cursors := outputReads bufs lastPacket lastPacketIncomplete k
  if k < lastPacket.length then none
  else outputLoopAt (nextQuantileRank siz numQuantiles) numQuantiles (unread cursors + 1) cursors
    0 0

/-- The effective elements: each buffer's elements as often as its weight says, and those of
the last packet. -/
def effectiveElems (bufs : List Buffer) (lastPacket : List Int) (lastPacketIncomplete : Int) :
    List (Int × Nat) :=
  bufs.flatMap Buffer.weightedElems ++
    if lastPacketIncomplete = 1 then lastPacket.map (fun a => (a, 1)) else []

/-! ### Target ranks -/

lemma nextQuantileRank_pos {siz numQuantiles : Nat} (hsiz : 0 < siz) (hq : 0 < numQuantiles)
    (jj : Nat) : 0 < nextQuantileRank siz numQuantiles jj := by
  have hround (n : Nat) (hn : 0 < n) : 0 < Binary64.round n :=
    Binary64.round_pos (by exact_mod_cast hn)
  apply Nat.ceil_pos.mpr
  apply Binary64.round_pos
  apply div_pos _ (hround _ hq)
  apply Binary64.round_pos
  exact mul_pos (hround _ (Nat.succ_pos jj)) (hround _ hsiz)

lemma nextQuantileRank_mono {siz numQuantiles : Nat} (hsiz : 0 < siz) (hq : 0 < numQuantiles) :
    Monotone (nextQuantileRank siz numQuantiles) := by
  have hround (n : Nat) (hn : 0 < n) : 0 < Binary64.round n :=
    Binary64.round_pos (by exact_mod_cast hn)
  intro i j hij
  have hs := hround _ hsiz
  have hi := mul_pos (hround _ (Nat.succ_pos i)) hs
  apply Nat.ceil_mono
  apply Binary64.round_mono (div_pos (Binary64.round_pos hi) (hround _ hq))
  apply div_le_div_of_nonneg_right _ (hround _ hq).le
  apply Binary64.round_mono hi
  apply mul_le_mul_of_nonneg_right _ hs.le
  exact Binary64.round_mono (by exact_mod_cast Nat.succ_pos i) (by exact_mod_cast Nat.succ_le_succ hij)

/-- No slot is due before the first element. -/
lemma filled_zero {siz numQuantiles : Nat} (hsiz : 0 < siz) (hq : 0 < numQuantiles) :
    fillSlotsAt (nextQuantileRank siz numQuantiles) numQuantiles 0 numQuantiles 0 = 0 := by
  by_contra hne
  have hdue := (lt_filled (nextQuantileRank_mono hsiz hq) 0 0).mp (Nat.pos_of_ne_zero hne)
  have hpos := nextQuantileRank_pos hsiz hq 0
  omega

/-- As long as the products fit a double the ranks are exact. -/
lemma nextQuantileRank_eq_ceil {siz numQuantiles : Nat} (hsiz : 0 < siz)
    (hsmall : numQuantiles * siz < 2 ^ 53) {jj : Nat} (hjj : jj < numQuantiles) :
    nextQuantileRank siz numQuantiles jj = ⌈((jj + 1) * siz / numQuantiles : ℚ)⌉₊ := by
  have hprod : (jj + 1) * siz < 2 ^ 53 :=
    (Nat.mul_le_mul_right siz hjj).trans_lt hsmall
  have hj : jj + 1 < 2 ^ 53 := (Nat.le_mul_of_pos_right _ hsiz).trans_lt hprod
  have hs : siz < 2 ^ 53 := (Nat.le_mul_of_pos_left _ (Nat.succ_pos jj)).trans_lt hprod
  have hq : numQuantiles < 2 ^ 53 := (Nat.le_mul_of_pos_right _ hsiz).trans_lt hsmall
  have hceil := Binary64.ceil_round_div (Nat.mul_pos (Nat.succ_pos jj) hsiz)
    (Nat.zero_lt_of_lt hjj) hprod
  have hcast : ((jj + 1 : ℕ) : ℚ) * siz = ((jj + 1) * siz : ℕ) := by push_cast; ring
  rw [nextQuantileRank, Binary64.round_natCast hj, Binary64.round_natCast hs, hcast,
    Binary64.round_natCast hprod, Binary64.round_natCast hq, ← Int.ceil_toNat, hceil,
    Int.ceil_toNat]
  push_cast
  rfl

lemma ceil_eq_quantileRank (siz : Nat) {numQuantiles : Nat} (h : 0 < numQuantiles) (j : Nat) :
    ⌈((j + 1) * siz / numQuantiles : ℚ)⌉₊ = quantileRank siz numQuantiles j := by
  rw [← Int.ceil_toNat, ← quantileRank_eq_ceil siz h, Int.toNat_natCast]

/-! ### What is read -/

lemma cursorElems_outputReads {bufs : List Buffer} {k : Nat}
    (hbufs : ∀ buf ∈ bufs, buf.elems.length = k) (lastPacket : List Int) (flag : Int) :
    cursorElems (outputReads bufs lastPacket flag k) = effectiveElems bufs lastPacket flag := by
  rw [outputReads, effectiveElems, cursorElems, List.flatMap_append, List.flatMap_map]
  congr 1
  · apply List.flatMap_congr
    intro buf hbuf
    rw [Cursor.weightedRest, List.take_of_length_le (hbufs buf hbuf).le, Buffer.weightedElems]
  · split <;> simp [Cursor.weightedRest]

lemma sortedCursors_outputReads {bufs : List Buffer} {lastPacket : List Int}
    (hbufs : ∀ buf ∈ bufs, buf.elems.Pairwise (· ≤ ·)) (hlast : lastPacket.Pairwise (· ≤ ·))
    (flag : Int) (k : Nat) : SortedCursors (outputReads bufs lastPacket flag k) := by
  intro c hc _
  rw [outputReads, List.mem_append, List.mem_map] at hc
  rcases hc with ⟨buf, hbuf, rfl⟩ | hc
  · exact (hbufs buf hbuf).sublist (List.take_sublist _ _)
  · split at hc
    · rw [List.mem_singleton.mp hc]
      exact hlast
    · simp at hc

/-- Elements of weight 0 do not count. -/
lemma unroll_filter_belowMax {l : List (Int × Nat)} (h : ∀ a ∈ unroll l, a < intMax) :
    unroll (l.filter belowMax) = unroll l := by
  induction l with
  | nil => rfl
  | cons e l ih =>
    have hl := ih (fun a ha => h a (List.mem_append_right _ ha))
    by_cases hw : 0 < e.2
    · have he : e.1 < intMax := h e.1 (List.mem_append_left _ (by simp; omega))
      rw [List.filter_cons_of_pos (by simp [belowMax, hw, he]), RankPick.unroll_cons, hl,
        RankPick.unroll_cons]
    · have hzero : e.2 = 0 := by omega
      rw [List.filter_cons_of_neg (by simp [belowMax, hzero]), RankPick.unroll_cons, hl, hzero]
      rfl

lemma mem_sortedElements {a : Int} {l : List (Int × Nat)} :
    a ∈ sortedElements l ↔ a ∈ unroll l := List.mem_insertionSort _

/-- Without `INT_MAX` the merge visits everything. -/
lemma unroll_visited {cs : List Cursor} (hs : SortedCursors cs)
    (h : ∀ a ∈ sortedElements (cursorElems cs), a < intMax) :
    unroll (visited (unread cs) cs) = sortedElements (cursorElems cs) := by
  rw [sortedElements_eq (visited_sorted hs le_rfl) (visited_perm hs le_rfl), sortedElements,
    unroll_filter_belowMax (fun a ha => h a (mem_sortedElements.mpr ha)), sortedElements]

lemma visited_lt_intMax {cs : List Cursor} (hs : SortedCursors cs) {e : Int × Nat}
    (he : e ∈ visited (unread cs) cs) : e.1 < intMax := by
  have hmem := (visited_perm hs le_rfl).mem_iff.mp he
  exact (of_decide_eq_true (List.mem_filter.mp hmem).2).2

/-! ### The slots -/

section Slots

variable {bufs : List Buffer} {lastPacket : List Int} {flag : Int} {siz numQuantiles k : Nat}
  (hq : 1 ≤ numQuantiles) (hk : ∀ buf ∈ bufs, buf.elems.length = k)
  (hbufs : ∀ buf ∈ bufs, buf.elems.Pairwise (· ≤ ·)) (hlast : lastPacket.Pairwise (· ≤ ·))
  (hlen : lastPacket.length ≤ k)
  (hsiz : siz = (sortedElements (effectiveElems bufs lastPacket flag)).length) (hpos : 1 ≤ siz)

include hq hbufs hlast hlen hpos

/-- `Output` ends, having handed what it visits to the slots by rank. -/
lemma outputRun_eq :
    outputRun bufs lastPacket flag siz numQuantiles k =
      some (handOut (fun r => fillSlotsAt (nextQuantileRank siz numQuantiles) numQuantiles r
        numQuantiles 0) (visited (unread (outputReads bufs lastPacket flag k))
          (outputReads bufs lastPacket flag k)) 0) := by
  have hmono := nextQuantileRank_mono hpos hq
  have hzero := filled_zero hpos hq
  have hloop := outputLoopAt_eq hmono numQuantiles
    (sortedCursors_outputReads hbufs hlast flag k) le_rfl 0
  rw [hzero] at hloop
  rw [outputRun]
  simp only [if_neg (not_lt.mpr hlen)]
  exact hloop

lemma outputRun_lt_intMax {ys : List Int}
    (h : outputRun bufs lastPacket flag siz numQuantiles k = some ys) : ∀ y ∈ ys, y < intMax := by
  intro y hy
  rw [outputRun_eq hq hbufs hlast hlen hpos, Option.some.injEq] at h
  rw [← h] at hy
  obtain ⟨e, he, rfl⟩ := RankPick.mem_handOut hy
  exact visited_lt_intMax (sortedCursors_outputReads hbufs hlast flag k) he

include hk hsiz

/-- Without `INT_MAX`, slot `j` receives the element at the rank computed in doubles. -/
lemma outputRun_slots
    (hmax : ∀ a ∈ sortedElements (effectiveElems bufs lastPacket flag), a < intMax) :
    ∃ ys, outputRun bufs lastPacket flag siz numQuantiles k = some ys ∧ ys.Pairwise (· ≤ ·) ∧
      (∀ j, j < ys.length ↔ j < numQuantiles ∧ nextQuantileRank siz numQuantiles j ≤ siz) ∧
      ∀ j < numQuantiles, ys[j]? = (sortedElements (effectiveElems bufs lastPacket flag))[
        nextQuantileRank siz numQuantiles j - 1]? := by
  have hmono := nextQuantileRank_mono hpos hq
  have hs := sortedCursors_outputReads hbufs hlast flag k
  have hreads := cursorElems_outputReads hk lastPacket flag
  have hall := unroll_visited hs (by rwa [hreads])
  rw [hreads] at hall
  have hreached := @lt_filled _ numQuantiles hmono
  have hzero := filled_zero hpos hq
  refine ⟨_, outputRun_eq hq hbufs hlast hlen hpos,
    RankPick.handOut_sorted _ (visited_sorted hs le_rfl) 0, ?_, ?_⟩
  · intro j
    rw [RankPick.length_handOut hreached, hall, ← hsiz, Nat.zero_add, hzero, Nat.sub_zero]
    exact hreached j siz
  · intro j hj
    rw [RankPick.getElem?_handOut hreached _ _ _ (by rw [hzero]; omega), hall, hzero,
      Nat.zero_add, Nat.sub_zero]

end Slots

/-- Every slot is written, with the element at rank `ceil((j+1)*siz/num_quantiles)`. -/
def SlotsFilled (bufs : List Buffer) (lastPacket : List Int) (flag : Int)
    (siz numQuantiles k : Nat) : Prop :=
  ∃ ys, outputRun bufs lastPacket flag siz numQuantiles k = some ys ∧
    ys.length = numQuantiles ∧ ys.Pairwise (· ≤ ·) ∧
    ∀ j < numQuantiles, ys[j]? = (sortedElements (effectiveElems bufs lastPacket flag))[
      ⌈((j + 1) * siz / numQuantiles : ℚ)⌉₊ - 1]?

section SlotsFilled

variable {bufs : List Buffer} {lastPacket : List Int} {flag : Int} {siz numQuantiles k : Nat}
  (hq : 1 ≤ numQuantiles) (hk : ∀ buf ∈ bufs, buf.elems.length = k)
  (hbufs : ∀ buf ∈ bufs, buf.elems.Pairwise (· ≤ ·)) (hlast : lastPacket.Pairwise (· ≤ ·))
  (hlen : lastPacket.length ≤ k)
  (hsiz : siz = (sortedElements (effectiveElems bufs lastPacket flag)).length) (hpos : 1 ≤ siz)

include hq hbufs hlast hlen hsiz hpos

/-- The last slot needs the greatest element, and only elements below `INT_MAX` are written. -/
lemma SlotsFilled.lt_intMax (h : SlotsFilled bufs lastPacket flag siz numQuantiles k) :
    ∀ a ∈ sortedElements (effectiveElems bufs lastPacket flag), a < intMax := by
  obtain ⟨ys, hrun, hfull, -, hslots⟩ := h
  have hslot := hslots (numQuantiles - 1) (by omega)
  have hrank : ⌈(((numQuantiles - 1 : ℕ) + 1) * siz / numQuantiles : ℚ)⌉₊ = siz := by
    have hn : ((numQuantiles - 1 : ℕ) : ℚ) + 1 = numQuantiles := by
      exact_mod_cast Nat.sub_add_cancel hq
    have hne : (numQuantiles : ℚ) ≠ 0 := by exact_mod_cast (by omega : numQuantiles ≠ 0)
    rw [hn, mul_div_cancel_left₀ _ hne, Nat.ceil_natCast]
  rw [hrank, List.getElem?_eq_getElem (by omega), List.getElem?_eq_getElem (by omega),
    Option.some.injEq] at hslot
  have hmax : ys[numQuantiles - 1] < intMax :=
    outputRun_lt_intMax hq hbufs hlast hlen hpos hrun _ (List.getElem_mem _)
  have hsorted := List.pairwise_iff_getElem.mp
    (sortedElements_sorted (effectiveElems bufs lastPacket flag))
  intro a ha
  obtain ⟨i, hi, rfl⟩ := List.mem_iff_getElem.mp ha
  rw [hslot] at hmax
  rcases Nat.lt_or_ge i (siz - 1) with hlt | hge
  · exact (hsorted i (siz - 1) hi (by omega) hlt).trans_lt hmax
  · have hi' : i = siz - 1 := by omega
    subst hi'
    exact hmax

include hk

/-- The slots are filled when the ranks computed in doubles lead to the right elements. -/
lemma SlotsFilled.of_ranks
    (hmax : ∀ a ∈ sortedElements (effectiveElems bufs lastPacket flag), a < intMax)
    (hranks : ∀ j < numQuantiles, nextQuantileRank siz numQuantiles j ≤ siz ∧
      (sortedElements (effectiveElems bufs lastPacket flag))[
          nextQuantileRank siz numQuantiles j - 1]? =
        (sortedElements (effectiveElems bufs lastPacket flag))[
          ⌈((j + 1) * siz / numQuantiles : ℚ)⌉₊ - 1]?) :
    SlotsFilled bufs lastPacket flag siz numQuantiles k := by
  obtain ⟨ys, hrun, hsorted, hlt, hslots⟩ := outputRun_slots hq hk hbufs hlast hlen hsiz hpos hmax
  refine ⟨ys, hrun, ?_, hsorted, fun j hj => ?_⟩
  · apply eq_of_forall_lt_iff
    intro j
    rw [hlt]
    exact ⟨fun h => h.1, fun h => ⟨h, (hranks j h).1⟩⟩
  · rw [hslots j hj, (hranks j hj).2]

/-- When the products fit a double only `INT_MAX` is in the way. -/
theorem output_fills_slots_of_small (hsmall : numQuantiles * siz < 2 ^ 53) :
    SlotsFilled bufs lastPacket flag siz numQuantiles k ↔
      ∀ a ∈ sortedElements (effectiveElems bufs lastPacket flag), a < intMax := by
  constructor
  · exact SlotsFilled.lt_intMax hq hbufs hlast hlen hsiz hpos
  · intro hmax
    apply SlotsFilled.of_ranks hq hk hbufs hlast hlen hsiz hpos hmax
    intro j hj
    rw [nextQuantileRank_eq_ceil hpos hsmall hj]
    refine ⟨?_, rfl⟩
    rw [ceil_eq_quantileRank siz hq]
    exact quantileRank_le_siz siz hj

end SlotsFilled

end Datacl
