import Datacl.Approx.QuantileSketch

/-!
# The main loop of `approx_quantile`

A block is cut into full packets, which go to the sketch, and at most one incomplete packet,
which ends the input. The collapses of a whole run cost at most `(b-2) * 2^(b-2)` in rank.
-/

namespace Datacl
open RankSketch (Approx)

/-- The packets of a block that go to the sketch. -/
def fullPackets (k : Nat) (packets : List (List Int)) : List (List Int) :=
  packets.filter (fun p => decide (p.length = k))

lemma addPackets_ok {b k : Nat} {s : Sketch} {data : Multiset Int} (packets : List (List Int))
    (h : SketchOk b k s data) (hlazy : Lazy s)
    (hle : totalWeight s.bufs + (fullPackets k packets).length < 2 ^ b) :
    ∃ s', addPackets k s packets = some s' ∧ Lazy s' ∧
      SketchOk b k s' (data + ((fullPackets k packets).flatten : Multiset Int)) := by
  induction packets generalizing s data with
  | nil => exact ⟨s, rfl, hlazy, by simpa [fullPackets] using h⟩
  | cons p ps ih =>
    rw [addPackets]
    by_cases hp : p.length = k
    · have hfull : fullPackets k (p :: ps) = p :: fullPackets k ps := by simp [fullPackets, hp]
      rw [hfull, List.length_cons] at hle
      obtain ⟨s₁, hadd, hok, hlazy₁, hw⟩ := addPacket_ok h hlazy (by omega)
        ((qsortAscI4_perm p).length_eq.trans hp) (qsortAscI4_sorted p)
      obtain ⟨s₂, hadds, hlazy₂, hok₂⟩ := ih hok hlazy₁ (by omega)
      refine ⟨s₂, ?_, hlazy₂, ?_⟩
      · rw [if_pos hp, hadd, Option.bind_eq_bind, Option.bind_some, hadds]
      · rw [Multiset.coe_eq_coe.mpr (qsortAscI4_perm p), add_assoc, Multiset.coe_add] at hok₂
        rw [hfull, List.flatten_cons]
        exact hok₂
    · have hfull : fullPackets k (p :: ps) = fullPackets k ps := by simp [fullPackets, hp]
      rw [hfull] at hle
      rw [if_neg hp, hfull]
      exact ih h hlazy hle

/-! ### The packets of a block -/

lemma addPackets_append (k : Nat) (s : Sketch) (ps qs : List (List Int)) :
    addPackets k s (ps ++ qs) = (addPackets k s ps).bind (fun s' => addPackets k s' qs) := by
  induction ps generalizing s with
  | nil => rfl
  | cons p ps ih =>
    rw [List.cons_append, addPackets, addPackets]
    split_ifs with hp
    · cases hadd : addPacket s (qsortAscI4 p) with
      | none => rfl
      | some s' => exact ih s'
    · exact ih s

lemma fillAll_succ (n k : Nat) (x : List Int) (loc : Nat) :
    fillAll (n + 1) k x loc = (x.drop loc).take k :: fillAll n k x (loc + k) := by
  rw [fillAll_eq, fillAll_eq, List.range_succ_eq_map, List.map_cons, List.map_map]
  refine List.cons_eq_cons.mpr ⟨by simp, List.map_congr_left fun tid _ => ?_⟩
  simp only [Function.comp_apply, Nat.succ_mul]
  congr 2
  omega

lemma fillAll_of_length_le {n k : Nat} {x : List Int} {loc : Nat} (h : x.length ≤ loc) :
    fillAll n k x loc = List.replicate n [] := by
  rw [fillAll_eq, List.eq_replicate_iff]
  refine ⟨by simp, fun p hp => ?_⟩
  obtain ⟨tid, -, rfl⟩ := List.mem_map.mp hp
  rw [List.drop_eq_nil_of_le (by omega), List.take_nil]

lemma fullPackets_replicate_nil {k : Nat} (hk : 0 < k) (n : Nat) :
    fullPackets k (List.replicate n []) = [] := by
  simp [fullPackets, hk.ne]

lemma incompletePacket_replicate_nil (k n : Nat) :
    incompletePacket k (List.replicate n []) = [] := by
  have hnone : (List.replicate n ([] : List Int)).find?
      (fun p => decide (p.length ≠ 0 ∧ p.length ≠ k)) = none := by
    rw [List.find?_eq_none]
    intro p hp
    simp [List.eq_of_mem_replicate hp]
  rw [incompletePacket, hnone, Option.getD_none]

/-- Full packets and the incomplete one cover the block; the latter is at the end of `x`. -/
lemma packets_cover {k : Nat} (hk : 0 < k) (n : Nat) (x : List Int) (loc : Nat) :
    (fullPackets k (fillAll n k x loc)).flatten ++ incompletePacket k (fillAll n k x loc) =
        (x.drop loc).take (n * k) ∧
      (incompletePacket k (fillAll n k x loc)).length < k ∧
      (incompletePacket k (fillAll n k x loc) ≠ [] → x.length ≤ loc + n * k) := by
  induction n generalizing loc with
  | zero => simpa [fillAll, fullPackets, incompletePacket] using hk
  | succ n ih =>
    obtain ⟨hcover, hlt, hend⟩ := ih (loc + k)
    rw [fillAll_succ]
    by_cases hlen : k ≤ (x.drop loc).length
    · have htake : ((x.drop loc).take k).length = k := List.length_take_of_le hlen
      have hfull : fullPackets k ((x.drop loc).take k :: fillAll n k x (loc + k)) =
          (x.drop loc).take k :: fullPackets k (fillAll n k x (loc + k)) := by
        simp only [fullPackets, List.filter_cons, htake, decide_true, if_true]
      have hinc : incompletePacket k ((x.drop loc).take k :: fillAll n k x (loc + k)) =
          incompletePacket k (fillAll n k x (loc + k)) := by
        simp only [incompletePacket, List.find?_cons, htake, ne_eq, not_true_eq_false, and_false,
          decide_false]
      rw [hfull, hinc]
      refine ⟨?_, hlt, fun h => (hend h).trans (by rw [Nat.succ_mul]; omega)⟩
      rw [List.flatten_cons, List.append_assoc, hcover, Nat.succ_mul, Nat.add_comm (n * k),
        List.take_add, List.drop_drop]
    · have hshort : (x.drop loc).length < k := by omega
      have htake : (x.drop loc).take k = x.drop loc := List.take_of_length_le hshort.le
      have hover : x.length ≤ loc + k := by
        rw [List.length_drop] at hshort
        omega
      have hfull : fullPackets k (x.drop loc :: List.replicate n []) = [] := by
        have hrest := fullPackets_replicate_nil hk n
        rw [fullPackets] at hrest
        rw [fullPackets, List.filter_cons_of_neg (by simpa using hshort.ne), hrest]
      have hinc : incompletePacket k (x.drop loc :: List.replicate n []) = x.drop loc := by
        by_cases hnil : x.drop loc = []
        · rw [hnil, ← List.replicate_succ, incompletePacket_replicate_nil]
        · have hpos := List.length_pos_of_ne_nil hnil
          rw [incompletePacket, List.find?_cons_of_pos, Option.getD_some]
          simp only [decide_eq_true_eq]
          omega
      rw [htake, fillAll_of_length_le hover, hfull, hinc]
      refine ⟨?_, hshort, fun _ => hover.trans (by rw [Nat.succ_mul]; omega)⟩
      rw [List.flatten_nil, List.nil_append, List.take_of_length_le]
      exact hshort.le.trans (by rw [Nat.succ_mul]; omega)

lemma length_of_mem_fullPackets {k : Nat} {packets : List (List Int)} {p : List Int}
    (h : p ∈ fullPackets k packets) : p.length = k := by
  simpa using (List.mem_filter.mp h).2

lemma length_flatten_eq {k : Nat} {full : List (List Int)} (h : ∀ p ∈ full, p.length = k) :
    full.flatten.length = full.length * k := by
  rw [List.length_flatten, List.map_congr_left h, List.map_const', List.sum_replicate, smul_eq_mul]

lemma length_flatten_fullPackets (k : Nat) (packets : List (List Int)) :
    (fullPackets k packets).flatten.length = (fullPackets k packets).length * k :=
  length_flatten_eq fun _ hp => length_of_mem_fullPackets hp

/-! ### The loop over the blocks -/

lemma quantileBlocks_of_le {numThreads k fuel loc : Nat} {x last : List Int} {s : Sketch}
    (h : x.length ≤ loc) : quantileBlocks numThreads k x fuel loc s last = some (s, last) := by
  cases fuel with
  | zero => rw [quantileBlocks, if_neg (by omega)]
  | succ fuel => rw [quantileBlocks, if_neg (by omega)]

lemma totalWeight_mul {b k : Nat} {s : Sketch} {data : Multiset Int} (h : SketchOk b k s data) :
    totalWeight s.bufs * k = data.card := by
  rw [← card_sketchBag h.buffers, h.approx.card]

/-- The main loop ends with a sketch of all elements outside the incomplete last packet. -/
lemma quantileBlocks_ok {numThreads b k : Nat} {x : List Int} (hn : 0 < numThreads) (hb : 0 < b)
    (hk : 0 < k) (hx : x.length ≤ k * 2 ^ (b - 1)) (fuel loc : Nat) {s : Sketch}
    (h : SketchOk b k s (x.take loc : Multiset Int)) (hlazy : Lazy s)
    (hfuel : x.length ≤ loc + fuel) :
    ∃ s' last data, quantileBlocks numThreads k x fuel loc s [] = some (s', last) ∧ Lazy s' ∧
      SketchOk b k s' data ∧ data + (last : Multiset Int) = (x : Multiset Int) ∧
      last.length < k := by
  induction fuel generalizing loc s with
  | zero =>
    have hloc : x.length ≤ loc := by omega
    rw [List.take_of_length_le hloc] at h
    exact ⟨s, [], x, quantileBlocks_of_le hloc, hlazy, h, by simp, by simpa using hk⟩
  | succ fuel ih =>
    by_cases hloc : x.length ≤ loc
    · rw [List.take_of_length_le hloc] at h
      exact ⟨s, [], x, quantileBlocks_of_le hloc, hlazy, h, by simp, by simpa using hk⟩
    obtain ⟨hcover, hlt, hend⟩ := packets_cover hk numThreads x loc
    have hsum := congrArg List.length hcover
    rw [List.length_append, length_flatten_fullPackets, List.length_take, List.length_drop] at hsum
    obtain ⟨s₁, hadd, hlazy₁, hok₁⟩ := addPackets_ok (fillAll numThreads k x loc)
      h hlazy <| by
        have hcard := totalWeight_mul h
        rw [Multiset.coe_card, List.length_take] at hcard
        refine lt_of_le_of_lt ?_ (Nat.pow_lt_pow_right Nat.one_lt_two (Nat.sub_one_lt hb.ne'))
        apply Nat.le_of_mul_le_mul_right _ hk
        rw [Nat.add_mul, hcard, Nat.mul_comm (2 ^ (b - 1))]
        omega
    have hsizes : (((fillAll numThreads k x loc).filter
        (fun p => decide (p.length = k))).map List.length).sum =
        (fullPackets k (fillAll numThreads k x loc)).flatten.length := by
      rw [List.length_flatten, fullPackets]
    rw [quantileBlocks, if_pos (by omega)]
    simp only [hadd, hsizes, Option.bind_eq_bind, Option.bind_some]
    by_cases hinc : incompletePacket k (fillAll numThreads k x loc) = []
    · rw [hinc, List.append_nil] at hcover
      have hpos : 0 < numThreads * k := Nat.mul_pos hn hk
      have htake : x.take (loc + (fullPackets k (fillAll numThreads k x loc)).flatten.length) =
          x.take loc ++ (fullPackets k (fillAll numThreads k x loc)).flatten := by
        rw [List.take_add, hcover, List.length_take, ← List.take_eq_take_min]
      rw [Multiset.coe_add, ← htake] at hok₁
      have hnext := ih _ hok₁ hlazy₁ <| by
        rw [hinc, List.length_nil, add_zero, ← length_flatten_fullPackets] at hsum
        omega
      simpa only [hinc, List.length_nil, if_true, add_zero] using hnext
    · have hne : (incompletePacket k (fillAll numThreads k x loc)).length ≠ 0 :=
        fun h0 => hinc (List.eq_nil_of_length_eq_zero h0)
      have hfin := hend hinc
      rw [if_neg hne]
      refine ⟨s₁, _, _, quantileBlocks_of_le ?_, hlazy₁, hok₁, ?_, hlt⟩
      · rw [length_flatten_fullPackets]
        omega
      · have hrest : (x.drop loc).take (numThreads * k) = x.drop loc := by
          apply List.take_of_length_le
          rw [List.length_drop]
          omega
        rw [add_assoc, Multiset.coe_add, hcover, hrest, Multiset.coe_add, List.take_append_drop]

/-! ### The error of a run -/

lemma length_le_totalWeight {bufs : List Buffer} (h : ∀ buf ∈ bufs, 0 < buf.weight) :
    bufs.length ≤ totalWeight bufs := by
  induction bufs with
  | nil => exact le_rfl
  | cons buf bufs ih =>
    rw [List.forall_mem_cons] at h
    have hsplit := totalWeight_split [] bufs buf
    rw [List.nil_append, List.nil_append] at hsplit
    have hrest := ih h.2
    rw [hsplit, List.length_cons]
    omega

/-- No buffer holds all packets unless it is the only one, so trees have at most `b-2` levels. -/
lemma log_weight_le {b k : Nat} {bufs : List Buffer} (hb : bufs.length = b)
    (hok : ∀ buf ∈ bufs, BufferOk k buf) (hused : ∀ buf ∈ bufs, 0 < buf.weight)
    (hle : totalWeight bufs ≤ 2 ^ (b - 1)) {buf : Buffer} (hbuf : buf ∈ bufs) :
    Nat.log 2 buf.weight ≤ b - 2 := by
  obtain ⟨l₁, l₂, rfl⟩ := List.append_of_mem hbuf
  have hpow := (hok buf hbuf).pow (hused buf hbuf)
  have hother : (l₁ ++ l₂).length ≤ totalWeight (l₁ ++ l₂) := by
    apply length_le_totalWeight
    intro c hc
    apply hused c
    rw [List.mem_append] at hc
    rw [List.mem_append, List.mem_cons]
    exact hc.imp_right .inr
  rw [totalWeight_split] at hle
  rw [List.length_append, List.length_cons] at hb
  rw [List.length_append] at hother
  obtain hb1 | hb2 : b = 1 ∨ 2 ≤ b := by omega
  · have hone : buf.weight ≤ 1 := by
      rw [hb1, Nat.sub_self, pow_zero] at hle
      omega
    rw [Nat.log_of_lt (by omega)]
    exact Nat.zero_le _
  · have hlt : 2 ^ Nat.log 2 buf.weight < 2 ^ (b - 1) := by omega
    have := (Nat.pow_lt_pow_iff_right (a := 2) (by omega)).mp hlt
    omega

lemma two_mul_totalError_le {bufs : List Buffer} {m : Nat}
    (h : ∀ buf ∈ bufs, Nat.log 2 buf.weight ≤ m) : 2 * totalError bufs ≤ totalWeight bufs * m := by
  induction bufs with
  | nil => simp [totalError]
  | cons buf bufs ih =>
    rw [List.forall_mem_cons] at h
    have hw := totalWeight_split [] bufs buf
    have he := totalError_split [] bufs buf
    rw [List.nil_append, List.nil_append] at hw he
    have hbuf : 2 * collapseError buf.weight ≤ buf.weight * m := by
      calc 2 * collapseError buf.weight ≤ buf.weight * Nat.log 2 buf.weight := by
            rw [collapseError]
            omega
        _ ≤ buf.weight * m := Nat.mul_le_mul_left _ h.1
    have hrest := ih h.2
    rw [hw, he, Nat.add_mul]
    omega

theorem totalError_le {b k : Nat} {s : Sketch} {data : Multiset Int} (h : SketchOk b k s data)
    (hlazy : Lazy s) (hle : totalWeight s.bufs ≤ 2 ^ (b - 1)) :
    totalError s.bufs ≤ (b - 2) * 2 ^ (b - 2) := by
  rcases hlazy with hone | hempty
  · have hlog : ∀ buf ∈ s.bufs, Nat.log 2 buf.weight ≤ 0 := by
      intro buf hbuf
      have := hone buf hbuf
      rw [Nat.log_of_lt (by omega)]
    have hzero := two_mul_totalError_le hlog
    omega
  · have hlog : ∀ buf ∈ s.bufs, Nat.log 2 buf.weight ≤ b - 2 := fun buf hbuf =>
      log_weight_le h.size h.buffers ((all_used_iff h).mp hempty) hle hbuf
    have htwo := two_mul_totalError_le hlog
    obtain hb | hb : b ≤ 2 ∨ 2 < b := by omega
    · have hm : b - 2 = 0 := by omega
      rw [hm] at htwo ⊢
      omega
    · have hpow : 2 ^ (b - 1) = 2 * 2 ^ (b - 2) := by
        rw [← pow_succ']
        congr 1
        omega
      have hmul : totalWeight s.bufs * (b - 2) ≤ 2 * ((b - 2) * 2 ^ (b - 2)) := by
        calc totalWeight s.bufs * (b - 2) ≤ 2 ^ (b - 1) * (b - 2) := Nat.mul_le_mul_right _ hle
          _ = 2 * ((b - 2) * 2 ^ (b - 2)) := by rw [hpow]; ring
      omega

end Datacl
