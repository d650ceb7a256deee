import Datacl.Approx.QuantileCollapse
import Datacl.Approx.Packets
import Mathlib.Data.Nat.Log

/-!
# The 2d buffer array as a rank sketch

Each used buffer has a power of two as its weight. A buffer of weight `2^h` is the root of a
tree of collapses with `h` levels, each of which moved ranks by half the weight of the buffer.
-/

namespace Datacl
open RankSketch (Approx Threshold below)

/-- The multiset the buffers stand for. -/
def sketchBag (bufs : List Buffer) : Multiset Int :=
  (bufs.map (fun buf => buf.weight • (buf.elems : Multiset Int))).sum

def totalWeight (bufs : List Buffer) : Nat := (bufs.map Buffer.weight).sum

/-- The rank error that the collapses below a buffer of weight `w` have caused. -/
def collapseError (w : Nat) : Nat := w * Nat.log 2 w / 2

def totalError (bufs : List Buffer) : Nat := (bufs.map (fun buf => collapseError buf.weight)).sum

/-- A used buffer is sorted and its weight is a power of two. -/
structure BufferOk (k : Nat) (buf : Buffer) : Prop where
  length : buf.elems.length = k
  sorted : 0 < buf.weight → buf.elems.Pairwise (· ≤ ·)
  pow : 0 < buf.weight → 2 ^ Nat.log 2 buf.weight = buf.weight

/-- The buffers stand for the data of all full packets read so far. -/
structure SketchOk (b k : Nat) (s : Sketch) (data : Multiset Int) : Prop where
  size : s.bufs.length = b
  buffers : ∀ buf ∈ s.bufs, BufferOk k buf
  empty : s.noOfEmptyBuffers = s.bufs.countP (fun buf => buf.weight = 0)
  approx : Approx data (sketchBag s.bufs) (totalError s.bufs)

/-- Collapses happen only once every buffer is in use. -/
def Lazy (s : Sketch) : Prop := (∀ buf ∈ s.bufs, buf.weight ≤ 1) ∨ s.noOfEmptyBuffers = 0

/-! ### Splitting the buffer array -/

lemma exists_split_of_findIdx? {α : Type} {p : α → Bool} {l : List α} {i : Nat}
    (h : l.findIdx? p = some i) : ∃ l₁ a l₂, l = l₁ ++ a :: l₂ ∧ l₁.length = i ∧ p a := by
  obtain ⟨hi, hp, -⟩ := List.findIdx?_eq_some_iff_getElem.mp h
  refine ⟨l.take i, l[i], l.drop (i + 1), ?_, ?_, hp⟩
  · rw [List.getElem_cons_drop, List.take_append_drop]
  · rw [List.length_take]
    omega

lemma exists_split_of_findPair {bufs : List Buffer} {i j : Nat}
    (h : findPair bufs = some (i, j)) : ∃ l₁ buf1 l₂ buf2 l₃,
      bufs = l₁ ++ buf1 :: (l₂ ++ buf2 :: l₃) ∧ l₁.length = i ∧ l₁.length + 1 + l₂.length = j ∧
        0 < buf1.weight ∧ buf2.weight = buf1.weight := by
  induction bufs generalizing i j with
  | nil => simp [findPair] at h
  | cons buf bufs ih =>
    rw [findPair] at h
    split at h
    next j' hfind =>
      obtain ⟨hpos, hidx⟩ : 0 < buf.weight ∧
          bufs.findIdx? (fun c => c.weight = buf.weight) = some j' := by
        by_cases hpos : 0 < buf.weight
        · exact ⟨hpos, by simpa [hpos] using hfind⟩
        · simp [hpos] at hfind
      obtain ⟨l₂, buf2, l₃, rfl, hlen, heq⟩ := exists_split_of_findIdx? hidx
      simp only [Option.some.injEq, Prod.mk.injEq] at h
      refine ⟨[], buf, l₂, buf2, l₃, rfl, h.1, ?_, hpos, by simpa using heq⟩
      simp only [List.length_nil]
      omega
    next =>
      rw [Option.map_eq_some_iff] at h
      obtain ⟨⟨i', j'⟩, hpair, heq⟩ := h
      obtain ⟨l₁, buf1, l₂, buf2, l₃, rfl, hi, hj, hpos, hw⟩ := ih hpair
      simp only [Prod.mk.injEq] at heq
      refine ⟨buf :: l₁, buf1, l₂, buf2, l₃, rfl, ?_, ?_, hpos, hw⟩
      · rw [List.length_cons]
        omega
      · rw [List.length_cons]
        omega

/-- When no pair is found, used buffers have different weights. -/
lemma pairwise_of_findPair_eq_none {bufs : List Buffer} (h : findPair bufs = none) :
    bufs.Pairwise (fun c d => 0 < c.weight → c.weight ≠ d.weight) := by
  induction bufs with
  | nil => exact List.Pairwise.nil
  | cons buf bufs ih =>
    rw [findPair] at h
    split at h
    next => simp at h
    next hnone =>
      refine List.pairwise_cons.mpr ⟨fun d hd hpos heq => ?_, ih (by simpa using h)⟩
      rw [if_pos hpos, List.findIdx?_eq_none_iff] at hnone
      simpa [heq] using hnone d hd

/-- Different powers of two add up to at least what the smallest ones do. -/
lemma two_pow_length_le {l : List Nat} (h : l.Nodup) :
    2 ^ l.length ≤ (l.map (fun n => 2 ^ n)).sum + 1 := by
  induction hlen : l.length generalizing l with
  | zero => exact Nat.le_add_left 1 _
  | succ n ih =>
    obtain ⟨m, hm, hnm⟩ : ∃ m ∈ l, n ≤ m := by
      by_contra hno
      push Not at hno
      have hsub : l ⊆ List.range n := fun m hm => List.mem_range.mpr (hno m hm)
      have hle := (h.subperm hsub).length_le
      rw [List.length_range] at hle
      omega
    have hrest := ih (h.erase m) (by rw [List.length_erase_of_mem hm, hlen, Nat.add_sub_cancel])
    have hpow : 2 ^ n ≤ 2 ^ m := Nat.pow_le_pow_right Nat.two_pos hnm
    rw [((List.perm_cons_erase hm).map _).sum_eq, List.map_cons, List.sum_cons, pow_succ]
    omega

/-- With all `b` buffers in use and fewer than `2^b - 1` packets read, two have the same weight. -/
lemma exists_findPair {k : Nat} {bufs : List Buffer} (hok : ∀ buf ∈ bufs, BufferOk k buf)
    (hused : ∀ buf ∈ bufs, 0 < buf.weight) (hlt : totalWeight bufs + 1 < 2 ^ bufs.length) :
    ∃ i j, findPair bufs = some (i, j) := by
  by_contra hno
  have hnone : findPair bufs = none := by
    rw [Option.eq_none_iff_forall_ne_some]
    exact fun p hp => hno ⟨p.1, p.2, hp⟩
  have hnodup : (bufs.map (fun buf => Nat.log 2 buf.weight)).Nodup := by
    rw [List.Nodup, List.pairwise_map]
    refine (pairwise_of_findPair_eq_none hnone).imp_of_mem ?_
    intro c d hc hd hne heq
    apply hne (hused c hc)
    rw [← (hok c hc).pow (hused c hc), ← (hok d hd).pow (hused d hd), heq]
  have hweights : ((bufs.map (fun buf => Nat.log 2 buf.weight)).map (fun n => 2 ^ n)).sum =
      totalWeight bufs := by
    rw [List.map_map, totalWeight]
    exact congrArg List.sum (List.map_congr_left fun buf hbuf => (hok buf hbuf).pow (hused buf hbuf))
  have hge := two_pow_length_le hnodup
  rw [hweights, List.length_map] at hge
  omega

/-! ### Sums over the split array -/

lemma sketchBag_split (l₁ l₂ : List Buffer) (buf : Buffer) :
    sketchBag (l₁ ++ buf :: l₂) =
      sketchBag (l₁ ++ l₂) + buf.weight • (buf.elems : Multiset Int) := by
  simp only [sketchBag, List.map_append, List.map_cons, List.sum_append, List.sum_cons]
  abel

lemma totalWeight_split (l₁ l₂ : List Buffer) (buf : Buffer) :
    totalWeight (l₁ ++ buf :: l₂) = totalWeight (l₁ ++ l₂) + buf.weight := by
  simp only [totalWeight, List.map_append, List.map_cons, List.sum_append, List.sum_cons]
  omega

lemma totalError_split (l₁ l₂ : List Buffer) (buf : Buffer) :
    totalError (l₁ ++ buf :: l₂) = totalError (l₁ ++ l₂) + collapseError buf.weight := by
  simp only [totalError, List.map_append, List.map_cons, List.sum_append, List.sum_cons]
  omega

lemma card_sketchBag {k : Nat} {bufs : List Buffer} (hok : ∀ buf ∈ bufs, BufferOk k buf) :
    (sketchBag bufs).card = totalWeight bufs * k := by
  induction bufs with
  | nil => simp [sketchBag, totalWeight]
  | cons buf bufs ih =>
    rw [List.forall_mem_cons] at hok
    have hs := sketchBag_split [] bufs buf
    have ht := totalWeight_split [] bufs buf
    rw [List.nil_append, List.nil_append] at hs ht
    rw [hs, ht, Multiset.card_add, ih hok.2, Multiset.card_nsmul, Multiset.coe_card, hok.1.length,
      Nat.add_mul]

lemma two_mul_collapseError (h : Nat) : 2 * collapseError (2 ^ h) = 2 ^ h * h := by
  rw [collapseError, Nat.log_pow Nat.one_lt_two]
  cases h with
  | zero => rfl
  | succ h =>
    have heven : 2 ^ (h + 1) * (h + 1) = 2 * (2 ^ h * (h + 1)) := by rw [pow_succ]; ring
    rw [heven, Nat.mul_div_cancel_left _ Nat.two_pos]

/-- A collapse of two buffers of weight `w` costs `w` more. -/
lemma collapseError_double {w : Nat} (hpow : 2 ^ Nat.log 2 w = w) :
    collapseError (w + w) = collapseError w + collapseError w + w := by
  generalize Nat.log 2 w = h at hpow
  subst hpow
  have hdouble : 2 ^ h + 2 ^ h = 2 ^ (h + 1) := by rw [pow_succ]; ring
  have h1 := two_mul_collapseError h
  have h2 := two_mul_collapseError (h + 1)
  have h3 : 2 ^ (h + 1) * (h + 1) = 2 * (2 ^ h * h) + 2 * 2 ^ h := by rw [pow_succ]; ring
  rw [hdouble]
  omega

/-! ### `Collapse` and `New` keep the sketch -/

lemma set_split {α : Type} (l₁ l₂ : List α) (a c : α) :
    (l₁ ++ a :: l₂).set l₁.length c = l₁ ++ c :: l₂ := by
  rw [List.set_append_right _ _ le_rfl, Nat.sub_self, List.set_cons_zero]

/-- The state of the buffers after two of them have been collapsed. -/
lemma makeRoom_eq {s : Sketch} {l₁ l₂ l₃ : List Buffer} {buf1 buf2 : Buffer}
    (hempty : s.noOfEmptyBuffers = 0) (hbufs : s.bufs = l₁ ++ buf1 :: (l₂ ++ buf2 :: l₃))
    (hpair : findPair s.bufs = some (l₁.length, l₁.length + 1 + l₂.length)) :
    makeRoom s = some ⟨l₁ ++ (collapse buf1 buf2).1 :: (l₂ ++ (collapse buf1 buf2).2 :: l₃), 1⟩ := by
  have h1 : s.bufs[l₁.length]? = some buf1 := by simp [hbufs]
  have hshift : s.bufs = (l₁ ++ buf1 :: l₂) ++ buf2 :: l₃ := by simp [hbufs]
  have hlen : l₁.length + 1 + l₂.length = (l₁ ++ buf1 :: l₂).length := by
    simp only [List.length_append, List.length_cons]
    omega
  have h2 : s.bufs[l₁.length + 1 + l₂.length]? = some buf2 := by simp [hshift, hlen]
  have hset : ((s.bufs.set l₁.length (collapse buf1 buf2).1).set (l₁.length + 1 + l₂.length)
      (collapse buf1 buf2).2) =
      l₁ ++ (collapse buf1 buf2).1 :: (l₂ ++ (collapse buf1 buf2).2 :: l₃) := by
    have hlen' : l₁.length + 1 + l₂.length = (l₁ ++ (collapse buf1 buf2).1 :: l₂).length := by
      simp only [List.length_append, List.length_cons]
      omega
    rw [hbufs, set_split, hlen', ← List.cons_append, ← List.append_assoc, set_split,
      List.append_assoc, List.cons_append]
  simp only [makeRoom, hempty, if_true, hpair, h1, h2, Option.bind_eq_bind, Option.bind_some, hset]

lemma countP_split {α : Type} (p : α → Bool) (l₁ l₂ : List α) (a : α) :
    (l₁ ++ a :: l₂).countP p = (l₁ ++ l₂).countP p + if p a then 1 else 0 := by
  simp only [List.countP_append, List.countP_cons]
  omega

section Collapse

variable {k : Nat} {l₁ l₂ l₃ : List Buffer} {buf1 buf2 : Buffer}

/-- A collapsed pair stands for the data of the pair, at one more weight of error. -/
lemma approx_collapse {data : Multiset Int} (h1 : BufferOk k buf1) (h2 : BufferOk k buf2)
    (hpos : 0 < buf1.weight) (hw : buf2.weight = buf1.weight)
    (h : Approx data (sketchBag (l₁ ++ buf1 :: (l₂ ++ buf2 :: l₃)))
      (totalError (l₁ ++ buf1 :: (l₂ ++ buf2 :: l₃)))) :
    Approx data (sketchBag (l₁ ++ (collapse buf1 buf2).1 :: (l₂ ++ (collapse buf1 buf2).2 :: l₃)))
      (totalError (l₁ ++ (collapse buf1 buf2).1 :: (l₂ ++ (collapse buf1 buf2).2 :: l₃))) := by
  have hs1 := h1.sorted hpos
  have hs2 := h2.sorted (by omega)
  rw [collapse_eq hpos rfl hw hs1 hs2 h1.length h2.length]
  simp only [sketchBag_split, totalError_split, ← List.append_assoc] at h ⊢
  rw [hw, add_assoc, add_assoc, add_comm (buf1.weight • _)] at h
  have hcard : ((buf1.weight + buf1.weight) •
      (picked buf1.weight buf1.elems buf2.elems : Multiset Int)).card =
      (buf1.weight • (buf1.elems : Multiset Int) + buf1.weight • (buf2.elems : Multiset Int)).card := by
    have hlen := length_picked (k := k) hpos hs1 hs2 (by rw [h1.length, h2.length]; omega)
    simp only [Multiset.card_nsmul, Multiset.card_add, Multiset.coe_card, hlen, h1.length,
      h2.length, Nat.add_mul]
  have hmem : ∀ a ∈ (buf1.weight + buf1.weight) •
      (picked buf1.weight buf1.elems buf2.elems : Multiset Int),
      a ∈ buf1.weight • (buf1.elems : Multiset Int) + buf1.weight • (buf2.elems : Multiset Int) := by
    intro a ha
    have hpick := mem_picked hpos (Multiset.mem_coe.mp (Multiset.mem_of_mem_nsmul ha))
    rw [Multiset.mem_add, Multiset.mem_nsmul_of_ne_zero (by omega),
      Multiset.mem_nsmul_of_ne_zero (by omega)]
    exact hpick
  have hnew := h.replace hmem hcard (fun p hp => below_picked hpos hs1 hs2 hp)
  have hzero : collapseError 0 = 0 := rfl
  rw [zero_nsmul, add_zero, hzero, collapseError_double (h1.pow hpos)]
  convert hnew using 1
  omega

lemma bufferOk_collapse (h1 : BufferOk k buf1) (h2 : BufferOk k buf2)
    (hpos : 0 < buf1.weight) (hw : buf2.weight = buf1.weight) :
    BufferOk k (collapse buf1 buf2).1 ∧ BufferOk k (collapse buf1 buf2).2 := by
  have hs1 := h1.sorted hpos
  have hs2 := h2.sorted (by omega)
  have hlen := length_picked (k := k) hpos hs1 hs2 (by rw [h1.length, h2.length]; omega)
  rw [collapse_eq hpos rfl hw hs1 hs2 h1.length h2.length]
  refine ⟨⟨hlen, fun _ => picked_sorted hpos hs1 hs2, fun _ => ?_⟩,
    ⟨h2.length, fun h => absurd h (lt_irrefl 0), fun h => absurd h (lt_irrefl 0)⟩⟩
  have hpow := h1.pow hpos
  generalize Nat.log 2 buf1.weight = h at hpow
  have hdouble : buf1.weight + buf1.weight = 2 ^ (h + 1) := by rw [← hpow, pow_succ]; ring
  simp only [hdouble, Nat.log_pow Nat.one_lt_two]

lemma weight_collapse (h1 : BufferOk k buf1) (h2 : BufferOk k buf2) (hpos : 0 < buf1.weight)
    (hw : buf2.weight = buf1.weight) :
    (collapse buf1 buf2).1.weight = buf1.weight + buf2.weight ∧
      (collapse buf1 buf2).2.weight = 0 := by
  rw [collapse_eq hpos rfl hw (h1.sorted hpos) (h2.sorted (by omega)) h1.length h2.length, hw]
  exact ⟨rfl, rfl⟩

end Collapse

lemma all_used_iff {s : Sketch} {b k : Nat} {data : Multiset Int} (h : SketchOk b k s data) :
    s.noOfEmptyBuffers = 0 ↔ ∀ buf ∈ s.bufs, 0 < buf.weight := by
  rw [h.empty, List.countP_eq_zero]
  simp only [decide_eq_true_eq, Nat.pos_iff_ne_zero, ne_eq]

/-- Room is made without changing what the buffers stand for. -/
lemma makeRoom_ok {b k : Nat} {s : Sketch} {data : Multiset Int}
    (h : SketchOk b k s data) (hlt : totalWeight s.bufs + 1 < 2 ^ b) :
    ∃ s', makeRoom s = some s' ∧ SketchOk b k s' data ∧
      totalWeight s'.bufs = totalWeight s.bufs ∧ 0 < s'.noOfEmptyBuffers ∧
      (s' = s ∨ s'.noOfEmptyBuffers = 1) := by
  by_cases hempty : s.noOfEmptyBuffers = 0
  · obtain ⟨i, j, hpair⟩ := exists_findPair h.buffers ((all_used_iff h).mp hempty)
      (by rwa [h.size])
    obtain ⟨l₁, buf1, l₂, buf2, l₃, hbufs, rfl, rfl, hpos, hw⟩ := exists_split_of_findPair hpair
    have hmem := h.buffers
    have hsize := h.size
    have hcount := h.empty
    have happrox := h.approx
    rw [hempty] at hcount
    rw [hbufs] at hmem hsize hcount happrox
    have h1 : BufferOk k buf1 := hmem buf1 (by simp)
    have h2 : BufferOk k buf2 := hmem buf2 (by simp)
    obtain ⟨hok1, hok2⟩ := bufferOk_collapse h1 h2 hpos hw
    obtain ⟨hw1, hw2⟩ := weight_collapse h1 h2 hpos hw
    refine ⟨_, makeRoom_eq hempty hbufs hpair, ⟨?_, ?_, ?_, approx_collapse h1 h2 hpos hw happrox⟩,
      ?_, Nat.one_pos, .inr rfl⟩
    · simpa using hsize
    · intro buf hbuf
      simp only [List.mem_append, List.mem_cons] at hbuf hmem
      rcases hbuf with hbuf | rfl | hbuf | rfl | hbuf
      · exact hmem buf (.inl hbuf)
      · exact hok1
      · exact hmem buf (.inr (.inr (.inl hbuf)))
      · exact hok2
      · exact hmem buf (.inr (.inr (.inr (.inr hbuf))))
    · simp only [countP_split, ← List.append_assoc, hw1, hw2, hw, decide_eq_true_eq] at hcount ⊢
      have hsum : ¬ buf1.weight + buf1.weight = 0 := by omega
      rw [if_pos trivial, if_neg hsum]
      omega
    · simp only [hbufs, totalWeight_split, ← List.append_assoc, hw1, hw2]
      omega
  · exact ⟨s, by simp [makeRoom, hempty], h, rfl, Nat.pos_of_ne_zero hempty, .inl rfl⟩

lemma storePacket_ok {b k : Nat} {s : Sketch} {data : Multiset Int} {packet : List Int}
    (h : SketchOk b k s data) (hempty : 0 < s.noOfEmptyBuffers) (hlen : packet.length = k)
    (hsorted : packet.Pairwise (· ≤ ·)) :
    ∃ s', storePacket s packet = some s' ∧ SketchOk b k s' (data + (packet : Multiset Int)) ∧
      totalWeight s'.bufs = totalWeight s.bufs + 1 ∧
      s'.noOfEmptyBuffers = s.noOfEmptyBuffers - 1 ∧
      ((∀ buf ∈ s.bufs, buf.weight ≤ 1) → ∀ buf ∈ s'.bufs, buf.weight ≤ 1) := by
  obtain ⟨i, hidx⟩ : ∃ i, s.bufs.findIdx? (fun buf => buf.weight = 0) = some i := by
    rw [h.empty, List.countP_pos_iff] at hempty
    obtain ⟨buf, hbuf, hzero⟩ := hempty
    have hsome : (s.bufs.findIdx? (fun buf => buf.weight = 0)).isSome := by
      rw [List.findIdx?_isSome, List.any_eq_true]
      exact ⟨buf, hbuf, hzero⟩
    exact Option.isSome_iff_exists.mp hsome
  obtain ⟨l₁, buf, l₂, hbufs, rfl, hzero⟩ := exists_split_of_findIdx? hidx
  have hw : buf.weight = 0 := by simpa using hzero
  have hset : s.bufs.set l₁.length ⟨1, packet⟩ = l₁ ++ ⟨1, packet⟩ :: l₂ := by
    rw [hbufs, set_split]
  have hmem := h.buffers
  have hsize := h.size
  have hcount := h.empty
  have happrox := h.approx
  rw [hbufs] at hmem hsize hcount happrox
  simp only [List.mem_append, List.mem_cons] at hmem
  have hother : ∀ {P : Buffer → Prop}, P ⟨1, packet⟩ → (∀ c, c ∈ l₁ ∨ c = buf ∨ c ∈ l₂ → P c) →
      ∀ c ∈ l₁ ++ ⟨1, packet⟩ :: l₂, P c := by
    intro P hnew hold c hc
    rw [List.mem_append, List.mem_cons] at hc
    rcases hc with hc | rfl | hc
    · exact hold c (.inl hc)
    · exact hnew
    · exact hold c (.inr (.inr hc))
  refine ⟨⟨l₁ ++ ⟨1, packet⟩ :: l₂, s.noOfEmptyBuffers - 1⟩, ?_, ⟨?_, ?_, ?_, ?_⟩, ?_, rfl, ?_⟩
  · simp only [storePacket, hidx, Option.bind_eq_bind, Option.bind_some, hset]
  · simpa using hsize
  · exact hother ⟨hlen, fun _ => hsorted, fun _ => by simp⟩ hmem
  · simp only [countP_split, hw, decide_true, if_true] at hcount ⊢
    simp only [one_ne_zero, decide_false, Bool.false_eq_true, if_false]
    omega
  · have hfree : collapseError 0 = 0 := rfl
    have hone : collapseError 1 = 0 := rfl
    rw [sketchBag_split, totalError_split, hw, zero_nsmul, hfree, add_zero, add_zero] at happrox
    rw [sketchBag_split, totalError_split, one_nsmul, hone, add_zero]
    exact happrox.add _
  · rw [hbufs, totalWeight_split, totalWeight_split, hw, add_zero]
  · intro hall
    rw [hbufs] at hall
    simp only [List.mem_append, List.mem_cons] at hall
    exact hother le_rfl hall

/-- One full packet is added as long as the packets fit in `b` buffers. -/
theorem addPacket_ok {b k : Nat} {s : Sketch} {data : Multiset Int} {packet : List Int}
    (h : SketchOk b k s data) (hlazy : Lazy s)
    (hlt : totalWeight s.bufs + 1 < 2 ^ b) (hlen : packet.length = k)
    (hsorted : packet.Pairwise (· ≤ ·)) :
    ∃ s', addPacket s packet = some s' ∧ SketchOk b k s' (data + (packet : Multiset Int)) ∧
      Lazy s' ∧ totalWeight s'.bufs = totalWeight s.bufs + 1 := by
  obtain ⟨s₁, hroom, hok₁, hw₁, hpos, hsame⟩ := makeRoom_ok h hlt
  obtain ⟨s₂, hstore, hok₂, hw₂, hempty, hone⟩ := storePacket_ok hok₁ hpos hlen hsorted
  refine ⟨s₂, ?_, hok₂, ?_, by rw [hw₂, hw₁]⟩
  · simp only [addPacket, hroom, hstore, Option.bind_eq_bind, Option.bind_some]
  · rcases hsame with rfl | hsame
    · rcases hlazy with hall | hzero
      · exact .inl (hone hall)
      · omega
    · exact .inr (by omega)

end Datacl
