import Datacl.Approx.QuantileSketch

/-!
# `Output` reads the quantiles off the buffers

`Output` is a merge of the sorted buffers that counts each element with its weight. The slot of
a target rank receives the element at which the count reaches that rank.
-/

namespace Datacl
open RankSketch (below)

/-! ### Target ranks -/

lemma quantileRank_mono (siz numQuantiles : Nat) {i j : Nat} (h : i ≤ j) :
    quantileRank siz numQuantiles i ≤ quantileRank siz numQuantiles j := by
  apply Nat.div_le_div_right
  gcongr

lemma quantileRank_le_siz (siz : Nat) {numQuantiles j : Nat} (h : j < numQuantiles) :
    quantileRank siz numQuantiles j ≤ siz := by
  have hle : (j + 1) * siz ≤ numQuantiles * siz := Nat.mul_le_mul_right siz h
  rw [quantileRank, ← Nat.lt_succ_iff, Nat.div_lt_iff_lt_mul (by omega), Nat.succ_mul siz,
    Nat.mul_comm siz]
  omega

lemma quantileRank_eq_ceil (siz : Nat) {numQuantiles : Nat} (h : 0 < numQuantiles) (j : Nat) :
    (quantileRank siz numQuantiles j : Int) = ⌈((j + 1) * siz / numQuantiles : ℚ)⌉ := by
  have hq : (0 : ℚ) < numQuantiles := by exact_mod_cast h
  symm
  rw [Int.ceil_eq_iff, div_le_iff₀ hq, lt_div_iff₀ hq, quantileRank]
  set a := (j + 1) * siz with ha
  have hdiv := Nat.div_add_mod (a + (numQuantiles - 1)) numQuantiles
  have hmod := Nat.mod_lt (a + (numQuantiles - 1)) h
  set d := (a + (numQuantiles - 1)) / numQuantiles
  have hcast : ((j : ℚ) + 1) * siz = a := by rw [ha]; push_cast; ring
  have hlow : d * numQuantiles < a + numQuantiles := by
    rw [Nat.mul_comm]
    omega
  have hhigh : a ≤ d * numQuantiles := by
    rw [Nat.mul_comm]
    omega
  rw [hcast]
  constructor
  · have : ((d * numQuantiles : Nat) : ℚ) < ((a + numQuantiles : Nat) : ℚ) := by exact_mod_cast hlow
    push_cast at this ⊢
    linarith
  · exact_mod_cast hhigh

/-- The slots filled once `rank` elements are counted are those with a target up to `rank`. -/
lemma fillSlots_spec (siz rank : Nat) {numQuantiles : Nat} (fuel jj : Nat) (hjj : jj ≤ numQuantiles)
    (hfuel : numQuantiles ≤ jj + fuel) :
    jj ≤ fillSlots siz numQuantiles rank fuel jj ∧
      fillSlots siz numQuantiles rank fuel jj ≤ numQuantiles ∧
      (∀ j, jj ≤ j → j < fillSlots siz numQuantiles rank fuel jj →
        quantileRank siz numQuantiles j ≤ rank) ∧
      (fillSlots siz numQuantiles rank fuel jj < numQuantiles →
        rank < quantileRank siz numQuantiles (fillSlots siz numQuantiles rank fuel jj)) := by
  induction fuel generalizing jj with
  | zero =>
    rw [fillSlots]
    exact ⟨le_rfl, hjj, fun j h1 h2 => by omega, fun h => by omega⟩
  | succ fuel ih =>
    rw [fillSlots]
    split
    next hc =>
      obtain ⟨hge, hle, hall, hnext⟩ := ih (jj + 1) hc.2 (by omega)
      refine ⟨by omega, hle, fun j h1 h2 => ?_, hnext⟩
      rcases Nat.eq_or_lt_of_le h1 with rfl | h1
      · exact hc.1
      · exact hall j h1 h2
    next hc =>
      exact ⟨le_rfl, hjj, fun j h1 h2 => by omega, fun h => by omega⟩

/-! ### The minimal unprocessed value -/

lemma minUnproc_spec (cs : List Cursor) (ii : Nat) (best : Int × Option Nat) :
    (minUnproc cs ii best).1 ≤ best.1 ∧
      (∀ c ∈ cs, 0 < c.weight → ∀ v t, c.rest = v :: t → (minUnproc cs ii best).1 ≤ v) ∧
      (minUnproc cs ii best = best ∨ ∃ i c t, cs[i]? = some c ∧ 0 < c.weight ∧
        c.rest = (minUnproc cs ii best).1 :: t ∧ (minUnproc cs ii best).2 = some (ii + i)) := by
  induction cs generalizing ii best with
  | nil => exact ⟨le_rfl, by simp, .inl rfl⟩
  | cons c cs ih =>
    have hrest : ∀ best', (∃ i d t, cs[i]? = some d ∧ 0 < d.weight ∧
        d.rest = (minUnproc cs (ii + 1) best').1 :: t ∧
        (minUnproc cs (ii + 1) best').2 = some (ii + 1 + i)) →
        ∃ i d t, (c :: cs)[i]? = some d ∧ 0 < d.weight ∧
          d.rest = (minUnproc cs (ii + 1) best').1 :: t ∧
          (minUnproc cs (ii + 1) best').2 = some (ii + i) := by
      rintro best' ⟨i, d, t, hget, hpos, hd, hloc⟩
      exact ⟨i + 1, d, t, by simpa using hget, hpos, hd, by rw [hloc]; congr 1; omega⟩
    rw [minUnproc]
    cases hc : c.rest with
    | nil =>
      obtain ⟨hle, hmin, hloc⟩ := ih (ii + 1) best
      refine ⟨hle, fun d hd hpos v t hv => ?_, hloc.imp_right (hrest _)⟩
      rcases List.mem_cons.mp hd with rfl | hd
      · simp [hc] at hv
      · exact hmin d hd hpos v t hv
    | cons v t =>
      dsimp only
      split
      next hlt =>
        obtain ⟨hle, hmin, hloc⟩ := ih (ii + 1) (v, some ii)
        refine ⟨hle.trans hlt.2.le, fun d hd hpos u s hu => ?_, .inr ?_⟩
        · rcases List.mem_cons.mp hd with rfl | hd
          · rw [hc] at hu
            obtain ⟨rfl, -⟩ := List.cons_eq_cons.mp hu
            exact hle
          · exact hmin d hd hpos u s hu
        · rcases hloc with heq | hloc
          · rw [heq]
            exact ⟨0, c, t, rfl, hlt.1, hc, rfl⟩
          · exact hrest _ hloc
      next hnlt =>
        obtain ⟨hle, hmin, hloc⟩ := ih (ii + 1) best
        refine ⟨hle, fun d hd hpos u s hu => ?_, hloc.imp_right (hrest _)⟩
        rcases List.mem_cons.mp hd with rfl | hd
        · rw [hc] at hu
          obtain ⟨rfl, -⟩ := List.cons_eq_cons.mp hu
          exact hle.trans (not_lt.mp fun h => hnlt ⟨hpos, h⟩)
        · exact hmin d hd hpos u s hu

/-! ### The loop -/

/-- What the cursors have not counted yet. -/
def cursorBag (cs : List Cursor) : Multiset Int :=
  (cs.map (fun c => c.weight • (c.rest : Multiset Int))).sum

lemma cursorBag_split (l₁ l₂ : List Cursor) (c : Cursor) :
    cursorBag (l₁ ++ c :: l₂) = c.weight • (c.rest : Multiset Int) + cursorBag (l₁ ++ l₂) := by
  simp only [cursorBag, List.map_append, List.map_cons, List.sum_append, List.sum_cons]
  abel

lemma mem_cursorBag {cs : List Cursor} {a : Int} (h : a ∈ cursorBag cs) :
    ∃ c ∈ cs, 0 < c.weight ∧ a ∈ c.rest := by
  induction cs with
  | nil => simp [cursorBag] at h
  | cons c cs ih =>
    have hsplit := cursorBag_split [] cs c
    rw [List.nil_append, List.nil_append] at hsplit
    rw [hsplit, Multiset.mem_add] at h
    rcases h with h | h
    · have hpos : 0 < c.weight := by
        by_contra hzero
        rw [Nat.eq_zero_of_not_pos hzero, zero_nsmul] at h
        exact Multiset.notMem_zero a h
      exact ⟨c, by simp, hpos, Multiset.mem_coe.mp (Multiset.mem_of_mem_nsmul h)⟩
    · obtain ⟨d, hd, hpos, hmem⟩ := ih h
      exact ⟨d, by simp [hd], hpos, hmem⟩

/-- `y` is the element at rank `r` of `all`. -/
def AtRank (all : Multiset Int) (r : Nat) (y : Int) : Prop :=
  y ∈ all ∧ below (fun a => decide (a < y)) all < r ∧ r ≤ below (fun a => decide (a ≤ y)) all

/-- `done` has been counted, in ascending order, and every target up to its size is served. -/
structure Counted (all done : Multiset Int) (numQuantiles : Nat) (cs : List Cursor)
    (rank jj : Nat) : Prop where
  split : all = done + cursorBag cs
  rank_eq : rank = done.card
  sorted : ∀ c ∈ cs, 0 < c.weight → c.rest.Pairwise (· ≤ ·)
  le : ∀ d ∈ done, ∀ a ∈ cursorBag cs, d ≤ a
  lt_intMax : ∀ a ∈ all, a < intMax
  slot_le : jj ≤ numQuantiles
  lt_target : jj < numQuantiles → rank < quantileRank all.card numQuantiles jj

/-- All targets are served once everything is counted. -/
lemma Counted.all_served {all done : Multiset Int} {numQuantiles rank jj : Nat} {cs : List Cursor}
    (h : Counted all done numQuantiles cs rank jj) (hnil : cursorBag cs = 0) :
    jj = numQuantiles := by
  by_contra hne
  have hlt : jj < numQuantiles := lt_of_le_of_ne h.slot_le hne
  have hrank : rank = all.card := by rw [h.rank_eq, h.split, hnil, add_zero]
  have h1 := h.lt_target hlt
  have h2 := quantileRank_le_siz all.card hlt
  omega

/-- The next element is the least that is not yet counted. -/
lemma Counted.atRank {all done : Multiset Int} {numQuantiles rank jj r : Nat} {c : Cursor}
    {v : Int} {t : List Int} {l₁ l₂ : List Cursor}
    (h : Counted all done numQuantiles (l₁ ++ c :: l₂) rank jj) (hpos : 0 < c.weight)
    (hrest : c.rest = v :: t) (hmin : ∀ a ∈ cursorBag (l₁ ++ c :: l₂), v ≤ a)
    (hlt : rank < r) (hle : r ≤ rank + c.weight) : AtRank all r v := by
  have hv : c.weight • ({v} : Multiset Int) ≤ cursorBag (l₁ ++ c :: l₂) := by
    rw [cursorBag_split, hrest, ← Multiset.cons_coe, ← Multiset.singleton_add, nsmul_add, add_assoc]
    exact Multiset.le_add_right _ _
  have hmem : v ∈ cursorBag (l₁ ++ c :: l₂) := by
    apply Multiset.mem_of_le hv
    rw [Multiset.mem_nsmul_of_ne_zero (by omega)]
    exact Multiset.mem_singleton_self v
  refine ⟨?_, ?_, ?_⟩
  · rw [h.split, Multiset.mem_add]
    exact .inr hmem
  · have hzero : below (fun a => decide (a < v)) (cursorBag (l₁ ++ c :: l₂)) = 0 := by
      rw [below, Multiset.countP_eq_zero]
      intro a ha
      simpa using hmin a ha
    have hcard : below (fun a => decide (a < v)) done ≤ done.card := Multiset.countP_le_card _ _
    rw [h.split, RankSketch.below_add, hzero]
    have := h.rank_eq
    omega
  · have hdone : below (fun a => decide (a ≤ v)) done = done.card := by
      rw [below, Multiset.countP_eq_card]
      intro d hd
      simpa using h.le d hd v hmem
    have hw : c.weight ≤ below (fun a => decide (a ≤ v)) (cursorBag (l₁ ++ c :: l₂)) := by
      have hcount := Multiset.countP_le_of_le (fun a => decide (a ≤ v) = true) hv
      have hone : Multiset.countP (fun a => decide (a ≤ v) = true) {v} = 1 := by
        rw [← Multiset.cons_zero, Multiset.countP_cons_of_pos _ (by simp), Multiset.countP_zero]
      rwa [Multiset.countP_nsmul, hone, mul_one] at hcount
    rw [h.split, RankSketch.below_add, hdone]
    have := h.rank_eq
    omega

/-- Counting the head of a cursor with its weight. -/
lemma Counted.advance {all done : Multiset Int} {numQuantiles rank jj jj' : Nat} {c : Cursor}
    {v : Int} {t : List Int} {l₁ l₂ : List Cursor}
    (h : Counted all done numQuantiles (l₁ ++ c :: l₂) rank jj) (hrest : c.rest = v :: t)
    (hmin : ∀ a ∈ cursorBag (l₁ ++ c :: l₂), v ≤ a) (hle : jj' ≤ numQuantiles)
    (hnext : jj' < numQuantiles → rank + c.weight < quantileRank all.card numQuantiles jj') :
    Counted all (done + c.weight • ({v} : Multiset Int)) numQuantiles
      (l₁ ++ ⟨c.weight, t⟩ :: l₂) (rank + c.weight) jj' := by
  have hbag : cursorBag (l₁ ++ c :: l₂) =
      c.weight • ({v} : Multiset Int) + cursorBag (l₁ ++ ⟨c.weight, t⟩ :: l₂) := by
    rw [cursorBag_split, cursorBag_split, hrest, ← Multiset.cons_coe, ← Multiset.singleton_add,
      nsmul_add, add_assoc]
  refine ⟨?_, ?_, ?_, ?_, h.lt_intMax, hle, hnext⟩
  · rw [h.split, hbag, add_assoc]
  · rw [Multiset.card_add, Multiset.card_nsmul, Multiset.card_singleton, mul_one, h.rank_eq]
  · intro d hd hpos
    rw [List.mem_append, List.mem_cons] at hd
    rcases hd with hd | rfl | hd
    · exact h.sorted d (by simp [hd]) hpos
    · have hs := h.sorted c (by simp) hpos
      rw [hrest] at hs
      exact (List.pairwise_cons.mp hs).2
    · exact h.sorted d (by simp [hd]) hpos
  · intro d hd a ha
    have ha' : a ∈ cursorBag (l₁ ++ c :: l₂) := by
      rw [hbag, Multiset.mem_add]
      exact .inr ha
    rw [Multiset.mem_add] at hd
    rcases hd with hd | hd
    · exact h.le d hd a ha'
    · rw [Multiset.mem_singleton.mp (Multiset.mem_of_mem_nsmul hd)]
      exact hmin a ha'

/-- When no minimum is found everything is counted. -/
lemma Counted.minUnproc_none {all done : Multiset Int} {numQuantiles rank jj : Nat}
    {cs : List Cursor} (h : Counted all done numQuantiles cs rank jj)
    (hnone : (minUnproc cs 0 (intMax, none)).2 = none) : cursorBag cs = 0 := by
  obtain ⟨-, hmin, hloc⟩ := minUnproc_spec cs 0 (intMax, none)
  have hbest : minUnproc cs 0 (intMax, none) = (intMax, none) := by
    rcases hloc with heq | ⟨i, c, t, -, -, -, hsome⟩
    · exact heq
    · rw [hnone] at hsome
      simp at hsome
  rw [hbest] at hmin
  rw [Multiset.eq_zero_iff_forall_notMem]
  intro a ha
  obtain ⟨c, hc, hpos, hmem⟩ := mem_cursorBag ha
  cases hrest : c.rest with
  | nil => simp [hrest] at hmem
  | cons v t =>
    have hs := h.sorted c hc hpos
    have hv := hmin c hc hpos v t hrest
    have hlt : a < intMax := h.lt_intMax a (by rw [h.split, Multiset.mem_add]; exact .inr ha)
    rw [hrest] at hs hmem
    rcases List.mem_cons.mp hmem with rfl | hmem
    · exact absurd hlt (not_lt.mpr hv)
    · exact absurd hlt (not_lt.mpr (hv.trans ((List.pairwise_cons.mp hs).1 a hmem)))

/-- The minimum that is found is the head of a cursor and at most everything uncounted. -/
lemma Counted.minUnproc_some {all done : Multiset Int} {numQuantiles rank jj i : Nat} {v : Int}
    {cs : List Cursor} (h : Counted all done numQuantiles cs rank jj)
    (hsome : minUnproc cs 0 (intMax, none) = (v, some i)) :
    ∃ l₁ c l₂ t, cs = l₁ ++ c :: l₂ ∧ l₁.length = i ∧ 0 < c.weight ∧ c.rest = v :: t ∧
      ∀ a ∈ cursorBag cs, v ≤ a := by
  obtain ⟨-, hmin, hloc⟩ := minUnproc_spec cs 0 (intMax, none)
  rw [hsome] at hmin hloc
  rcases hloc with heq | ⟨i', c, t, hget, hpos, hrest, hi⟩
  · simp at heq
  · have hi' : i = i' := by simpa using hi
    subst hi'
    obtain ⟨hlt, hci⟩ := List.getElem?_eq_some_iff.mp hget
    refine ⟨cs.take i, c, cs.drop (i + 1), t, ?_, ?_, hpos, hrest, ?_⟩
    · rw [← hci, List.getElem_cons_drop, List.take_append_drop]
    · rw [List.length_take]
      omega
    · intro a ha
      obtain ⟨d, hd, hdpos, hmem⟩ := mem_cursorBag ha
      cases hd' : d.rest with
      | nil => simp [hd'] at hmem
      | cons u s =>
        have hs := h.sorted d hd hdpos
        have hu := hmin d hd hdpos u s hd'
        rw [hd'] at hs hmem
        rcases List.mem_cons.mp hmem with rfl | hmem
        · exact hu
        · exact hu.trans ((List.pairwise_cons.mp hs).1 a hmem)

lemma cursorBag_eq_zero {cs : List Cursor} (h : (cs.map (fun c => c.rest.length)).sum = 0) :
    cursorBag cs = 0 := by
  rw [Multiset.eq_zero_iff_forall_notMem]
  intro a ha
  obtain ⟨c, hc, -, hmem⟩ := mem_cursorBag ha
  have hle := List.le_sum_of_mem (List.mem_map.mpr ⟨c, hc, rfl⟩ :
    c.rest.length ∈ cs.map (fun c => c.rest.length))
  have hpos := List.length_pos_of_mem hmem
  omega

/-- The loop fills every slot that is left, each with the element at its target rank. -/
lemma outputLoop_spec {all done : Multiset Int} {numQuantiles rank jj : Nat} {cs : List Cursor}
    (fuel : Nat) (hfuel : (cs.map (fun c => c.rest.length)).sum ≤ fuel)
    (h : Counted all done numQuantiles cs rank jj) :
    (outputLoop all.card numQuantiles fuel cs rank jj).length = numQuantiles - jj ∧
      ∀ i y, (outputLoop all.card numQuantiles fuel cs rank jj)[i]? = some y →
        AtRank all (quantileRank all.card numQuantiles (jj + i)) y := by
  induction fuel generalizing done cs rank jj with
  | zero =>
    have hall := h.all_served (cursorBag_eq_zero (by omega))
    simp [outputLoop, hall]
  | succ fuel ih =>
    rw [outputLoop]
    split
    next hnone =>
      have hall := h.all_served (h.minUnproc_none (by rw [hnone]))
      simp [hall]
    next v i hsome =>
      obtain ⟨l₁, c, l₂, t, rfl, rfl, hpos, hrest, hmin⟩ := h.minUnproc_some hsome
      have hget : (l₁ ++ c :: l₂)[l₁.length]? = some c := by simp
      simp only [hget, hrest, List.tail_cons, set_split]
      obtain ⟨hge, hle, hfill, hnext⟩ := fillSlots_spec all.card (rank + c.weight)
        numQuantiles jj h.slot_le (by omega)
      set jj' := fillSlots all.card numQuantiles (rank + c.weight) numQuantiles jj
      have hadv := h.advance hrest hmin hle hnext
      obtain ⟨hlen, hslots⟩ := ih (by
        simp only [List.map_append, List.map_cons, List.sum_append, List.sum_cons, hrest,
          List.length_cons] at hfuel ⊢
        omega) hadv
      refine ⟨?_, fun j y hy => ?_⟩
      · rw [List.length_append, List.length_replicate, hlen]
        omega
      · by_cases hj : j < jj' - jj
        · rw [List.getElem?_append_left (by simpa using hj)] at hy
          obtain rfl : v = y := by
            rw [List.getElem?_replicate, if_pos hj] at hy
            exact Option.some.inj hy
          have hserved := h.lt_target (by omega)
          have hmono := quantileRank_mono all.card numQuantiles (Nat.le_add_right jj j)
          exact h.atRank hpos hrest hmin (by omega) (hfill _ (by omega) (by omega))
        · rw [List.getElem?_append_right (by simpa using not_lt.mp hj), List.length_replicate] at hy
          have hrank := hslots _ y hy
          rwa [show jj' + (j - (jj' - jj)) = jj + j by omega] at hrank

/-! ### The call -/

lemma cursorBag_outputCursors (bufs : List Buffer) (lastPacket : List Int) :
    cursorBag (outputCursors bufs lastPacket) = sketchBag bufs + (lastPacket : Multiset Int) := by
  simp [cursorBag, outputCursors, sketchBag, Function.comp_def]

/-- `Output` writes every quantile at its exact rank in what the buffers stand for. -/
theorem output_spec (numQuantiles : Nat) {bufs : List Buffer} {lastPacket : List Int} {k : Nat}
    {all : Multiset Int} (hall : all = sketchBag bufs + (lastPacket : Multiset Int))
    (hbufs : ∀ buf ∈ bufs, BufferOk k buf) (hlast : lastPacket.Pairwise (· ≤ ·))
    (hlen : lastPacket.length ≤ k) (hmax : ∀ a ∈ all, a < intMax) (hpos : 0 < all.card) :
    ∃ ys, output bufs lastPacket all.card numQuantiles k = some ys ∧ ys.length = numQuantiles ∧
      ∀ j y, ys[j]? = some y → AtRank all (quantileRank all.card numQuantiles j) y := by
  have hstart : Counted all 0 numQuantiles (outputCursors bufs lastPacket) 0 0 := by
    refine ⟨?_, by simp, ?_, by simp, hmax, Nat.zero_le _, fun hq => ?_⟩
    · rw [cursorBag_outputCursors, hall, zero_add]
    · intro c hc hw
      simp only [outputCursors, List.mem_append, List.mem_map, List.mem_singleton] at hc
      rcases hc with ⟨buf, hbuf, rfl⟩ | rfl
      · exact (hbufs buf hbuf).sorted hw
      · exact hlast
    · apply Nat.div_pos _ hq
      omega
  obtain ⟨hfull, hslots⟩ := outputLoop_spec _ le_rfl hstart
  refine ⟨_, ?_, by simpa using hfull, fun j y hy => by simpa using hslots j y hy⟩
  rw [output]
  simp only [if_neg (not_lt.mpr hlen)]

end Datacl
