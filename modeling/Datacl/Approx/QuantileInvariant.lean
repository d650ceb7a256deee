import Datacl.Approx.QuantileGuarantee

/-!
# The buffers of `approx_quantile` never run out

`determine_b_k` chooses `b` and `k` for `2^(b-1)` full packets. The weights in use are powers of
two that add up to the number of full packets stored, so below `2^b - 1` packets `b` used buffers
cannot all have different weights and the search for a pair succeeds.
-/

namespace Datacl

/-- The buffers after `n` full packets. -/
structure BuffersHold (b n : Nat) (s : Sketch) : Prop where
  size : s.bufs.length = b
  pow : ∀ buf ∈ s.bufs, buf.weight = 0 ∨ ∃ h, buf.weight = 2 ^ h
  total : totalWeight s.bufs = n
  empty : s.noOfEmptyBuffers = s.bufs.countP (fun buf => buf.weight = 0)

/-- `bufidx1` and `bufidx2` are two used buffers of the same weight, in range for `Collapse`. -/
def IsPair (bufs : List Buffer) (bufidx1 bufidx2 : Nat) : Prop :=
  ∃ buf1 buf2, bufs[bufidx1]? = some buf1 ∧ bufs[bufidx2]? = some buf2 ∧ bufidx1 < bufidx2 ∧
    0 < buf1.weight ∧ buf1.weight = buf2.weight

/-- What the loop needs to store one more packet: a pair if no buffer is empty, and after that a
free buffer for `New`. -/
def HasRoom (b n : Nat) (s : Sketch) : Prop :=
  (s.noOfEmptyBuffers = 0 → ∃ i j, findPair s.bufs = some (i, j) ∧ IsPair s.bufs i j) ∧
    ∃ s', makeRoom s = some s' ∧ BuffersHold b n s' ∧
      ∃ i < b, s'.bufs.findIdx? (fun buf => buf.weight = 0) = some i

lemma SketchOk.buffersHold {b k : Nat} {s : Sketch} {data : Multiset Int}
    (h : SketchOk b k s data) : BuffersHold b (totalWeight s.bufs) s where
  size := h.size
  pow buf hbuf := by
    obtain hzero | hpos := Nat.eq_zero_or_pos buf.weight
    · exact .inl hzero
    · exact .inr ⟨_, ((h.buffers buf hbuf).pow hpos).symm⟩
  total := rfl
  empty := h.empty

lemma isPair_of_findPair {bufs : List Buffer} {i j : Nat} (h : findPair bufs = some (i, j)) :
    IsPair bufs i j := by
  obtain ⟨l₁, buf1, l₂, buf2, l₃, rfl, rfl, rfl, hpos, hw⟩ := exists_split_of_findPair h
  refine ⟨buf1, buf2, by simp, ?_, by omega, hpos, hw.symm⟩
  rw [List.getElem?_append_right (by omega)]
  have hshift : l₁.length + 1 + l₂.length - l₁.length = l₂.length + 1 := by omega
  rw [hshift, List.getElem?_cons_succ, List.getElem?_append_right le_rfl, Nat.sub_self,
    List.getElem?_cons_zero]

lemma exists_free_of_pos {b n : Nat} {s : Sketch} (h : BuffersHold b n s)
    (hpos : 0 < s.noOfEmptyBuffers) :
    ∃ i < b, s.bufs.findIdx? (fun buf => buf.weight = 0) = some i := by
  rw [h.empty, List.countP_pos_iff] at hpos
  have hsome : (s.bufs.findIdx? (fun buf => buf.weight = 0)).isSome := by
    rw [List.findIdx?_isSome, List.any_eq_true]
    exact hpos
  obtain ⟨i, hi⟩ := Option.isSome_iff_exists.mp hsome
  obtain ⟨hlt, -⟩ := List.findIdx?_eq_some_iff_getElem.mp hi
  exact ⟨i, h.size ▸ hlt, hi⟩

/-- One step: as long as the packets fit there is room for the next one. -/
lemma SketchOk.hasRoom {b k : Nat} {s : Sketch} {data : Multiset Int} (h : SketchOk b k s data)
    (hlt : totalWeight s.bufs + 1 < 2 ^ b) : HasRoom b (totalWeight s.bufs) s := by
  obtain ⟨s', hroom, hok, hw, hpos, -⟩ := makeRoom_ok h hlt
  have hhold := hok.buffersHold
  rw [hw] at hhold
  refine ⟨fun hempty => ?_, s', hroom, hhold, exists_free_of_pos hhold hpos⟩
  obtain ⟨i, j, hpair⟩ := exists_findPair h.buffers ((all_used_iff h).mp hempty) (by rwa [h.size])
  exact ⟨i, j, hpair, isPair_of_findPair hpair⟩

/-- The sketch after any packets that fit; it counts the full ones. -/
lemma addPackets_emptySketch {b k : Nat} (hk : 0 < k) (packets : List (List Int))
    (hfit : (fullPackets k packets).length < 2 ^ b) :
    ∃ s data, addPackets k (emptySketch b k) packets = some s ∧ SketchOk b k s data ∧
      totalWeight s.bufs = (fullPackets k packets).length := by
  have hzero : totalWeight (emptySketch b k).bufs = 0 := by simp [totalWeight, emptySketch]
  obtain ⟨s, hadd, -, hok⟩ := addPackets_ok packets (emptySketch_ok b k) (emptySketch_lazy b k)
    (by rwa [hzero, Nat.zero_add])
  refine ⟨s, _, hadd, hok, ?_⟩
  have hcard := totalWeight_mul hok
  rw [zero_add, Multiset.coe_card, length_flatten_fullPackets] at hcard
  exact Nat.eq_of_mul_eq_mul_right hk hcard

/-- The main loop adds the packets of its blocks one after another. -/
lemma addPackets_of_quantileBlocks {numThreads k fuel loc : Nat} {x last last' : List Int}
    {s s' : Sketch} (hk : 0 < k)
    (h : quantileBlocks numThreads k x fuel loc s last = some (s', last')) :
    ∃ packets, addPackets k s packets = some s' ∧
      (fullPackets k packets).length * k ≤ x.length - loc := by
  induction fuel generalizing loc s last with
  | zero =>
    rw [quantileBlocks] at h
    split_ifs at h
    simp only [Option.some.injEq, Prod.mk.injEq] at h
    exact ⟨[], by rw [addPackets, h.1], by simp [fullPackets]⟩
  | succ fuel ih =>
    rw [quantileBlocks] at h
    split_ifs at h
    · obtain ⟨s₁, hadd, hrest⟩ := Option.bind_eq_some_iff.mp h
      obtain ⟨packets, hpackets, hlen⟩ := ih hrest
      refine ⟨fillAll numThreads k x loc ++ packets, ?_, ?_⟩
      · rw [addPackets_append, hadd, Option.bind_some, hpackets]
      · have hcover := congrArg List.length (packets_cover hk numThreads x loc).1
        rw [List.length_append, length_flatten_fullPackets, List.length_take,
          List.length_drop] at hcover
        rw [← List.length_flatten, ← fullPackets, length_flatten_fullPackets] at hlen
        have happ : fullPackets k (fillAll numThreads k x loc ++ packets) =
            fullPackets k (fillAll numThreads k x loc) ++ fullPackets k packets :=
          List.filter_append ..
        rw [happ, List.length_append, Nat.add_mul]
        omega
    · simp only [Option.some.injEq, Prod.mk.injEq] at h
      exact ⟨[], by rw [addPackets, h.1], by simp [fullPackets]⟩

/-- After any packets that fit in the buffers, the weights are powers of two that add up to the
number of full packets, and another full packet that fits finds its pair and its free buffer.
`2^(b-1)` packets of `k` elements are enough for `siz` elements and fit, and the main loop on
`siz` elements is such a run. -/
theorem buffers_never_run_out (eps : ℚ) (siz b k : Nat) (hb : b = determineB eps siz)
    (hk : k = determineK siz b) :
    (∀ packets, (fullPackets k packets).length < 2 ^ b →
      ∃ s, addPackets k (emptySketch b k) packets = some s ∧
        BuffersHold b (fullPackets k packets).length s ∧
        ((fullPackets k packets).length + 1 < 2 ^ b →
          HasRoom b (fullPackets k packets).length s)) ∧
    siz ≤ k * 2 ^ (b - 1) ∧ 2 ^ (b - 1) < 2 ^ b ∧
    ∀ (x : List Int) (numThreads : Nat), x.length = siz → 0 < numThreads →
      ∃ s last packets, quantileBlocks numThreads k x x.length 0 (emptySketch b k) [] =
          some (s, last) ∧
        addPackets k (emptySketch b k) packets = some s ∧
        (fullPackets k packets).length ≤ 2 ^ (b - 1) := by
  have hbpos : 0 < b := hb ▸ determineB_pos eps siz
  have hkpos : 0 < k := hk ▸ determineK_pos siz b
  have hfits : siz ≤ k * 2 ^ (b - 1) := hk ▸ le_determineK_mul siz b
  refine ⟨fun packets hfit => ?_, hfits,
    Nat.pow_lt_pow_right Nat.one_lt_two (Nat.sub_one_lt hbpos.ne'), fun x numThreads hx hn => ?_⟩
  · obtain ⟨s, data, hadd, hok, hw⟩ := addPackets_emptySketch hkpos packets hfit
    have hhold := hok.buffersHold
    have hroom : totalWeight s.bufs + 1 < 2 ^ b → HasRoom b (totalWeight s.bufs) s := hok.hasRoom
    rw [hw] at hhold hroom
    exact ⟨s, hadd, hhold, hroom⟩
  · obtain ⟨s, last, data, hrun, -⟩ := quantileBlocks_ok hn hbpos hkpos (hx ▸ hfits) x.length 0
      (by simpa using emptySketch_ok b k) (emptySketch_lazy b k) (by omega)
    obtain ⟨packets, hpackets, hlen⟩ := addPackets_of_quantileBlocks hkpos hrun
    refine ⟨s, last, packets, hrun, hpackets, ?_⟩
    apply Nat.le_of_mul_le_mul_right _ hkpos
    rw [Nat.mul_comm (2 ^ (b - 1))]
    omega

theorem buffers_never_run_out_one_packet :
    determineB (1 / 10) 3 = 1 ∧ determineK 3 1 = 10000 ∧
      ∃ s, addPackets 10000 (emptySketch 1 10000) [List.replicate 10000 7] = some s ∧
        totalWeight s.bufs = 1 := by
  have hb : determineB (1 / 10) 3 = 1 := by
    have hceil : ⌈(1 / 10 : ℚ) * (3 : ℕ)⌉₊ = 1 := by
      rw [Nat.ceil_eq_iff one_ne_zero]
      norm_num
    rw [determineB, hceil, growB, if_neg (by norm_num)]
  have hk : determineK 3 1 = 10000 := by decide
  have hfull : fullPackets 10000 [List.replicate 10000 (7 : Int)] =
      [List.replicate 10000 7] := by
    simp only [fullPackets, List.filter_cons, List.length_replicate, decide_true, if_true,
      List.filter_nil]
  obtain ⟨s, hadd, hhold, -⟩ := (buffers_never_run_out (1 / 10) 3 1 10000 hb.symm hk.symm).1
    [List.replicate 10000 7] (by rw [hfull]; decide)
  rw [hfull] at hhold
  exact ⟨hb, hk, s, hadd, hhold.total⟩

end Datacl
