import Datacl.Approx.FrequentCounters
import Datacl.Approx.Packets

/-!
# The guarantee of `approx_frequent`

Every block is cut into packets whose concatenation is the part of the selected input it
covers, so the counters at the end of the main loop are a frequency summary of the whole
selected input.
-/

namespace Datacl
open Frequency (Summary)

/-! ### Packets in `(id, freq)` form -/

lemma bag_idFreqLoop (cur : Int) (tempFreq : Nat) (rest : List Int) :
    bag (idFreqLoop cur tempFreq rest) = Multiset.replicate tempFreq cur + (rest : Multiset Int) := by
  induction rest generalizing cur tempFreq with
  | nil => simp [idFreqLoop]
  | cons b rest ih =>
    rw [idFreqLoop]
    split
    next hb =>
      subst hb
      rw [ih, Multiset.replicate_succ, ← Multiset.cons_coe, Multiset.cons_add, Multiset.add_cons]
    next =>
      rw [bag_cons, ih, ← Multiset.cons_coe, Multiset.replicate_one, Multiset.singleton_add]

lemma counters_idFreqLoop {cur : Int} {tempFreq : Nat} {rest : List Int} (ht : 0 < tempFreq)
    (hs : (cur :: rest).Pairwise (· ≤ ·)) :
    Counters (idFreqLoop cur tempFreq rest) ∧ ∀ c ∈ idFreqLoop cur tempFreq rest, cur ≤ c.id := by
  induction rest generalizing cur tempFreq with
  | nil =>
    refine ⟨counters_cons.mpr ⟨ht, by simp, Counters.nil⟩, ?_⟩
    simp [idFreqLoop]
  | cons b rest ih =>
    obtain ⟨hle, hrest⟩ := List.pairwise_cons.mp hs
    have hb : cur ≤ b := hle b (by simp)
    rw [idFreqLoop]
    split
    next heq =>
      subst heq
      exact ih (Nat.succ_pos _) hrest
    next hne =>
      obtain ⟨hcs, hge⟩ := ih Nat.one_pos hrest
      have hlt : ∀ c ∈ idFreqLoop b 1 rest, cur < c.id := fun c hc =>
        lt_of_lt_of_le (lt_of_le_of_ne hb hne) (hge c hc)
      refine ⟨counters_cons.mpr ⟨ht, hlt, hcs⟩, ?_⟩
      simp only [List.forall_mem_cons, le_refl, true_and]
      exact fun c hc => (hlt c hc).le

/-- A sorted packet in `(id, freq)` form stands for the packet itself. -/
lemma bag_sortedArrayToIdFreq (buf : List Int) :
    bag (sortedArrayToIdFreq (qsortAscI4 buf)) = (buf : Multiset Int) := by
  rw [← Multiset.coe_eq_coe.mpr (qsortAscI4_perm buf)]
  cases qsortAscI4 buf with
  | nil => rfl
  | cons b rest =>
    rw [sortedArrayToIdFreq, bag_idFreqLoop, Multiset.replicate_one, Multiset.singleton_add,
      Multiset.cons_coe]

lemma counters_sortedArrayToIdFreq (buf : List Int) :
    Counters (sortedArrayToIdFreq (qsortAscI4 buf)) := by
  have hs := qsortAscI4_sorted buf
  cases hq : qsortAscI4 buf with
  | nil => exact Counters.nil
  | cons b rest =>
    rw [hq] at hs
    exact (counters_idFreqLoop Nat.one_pos hs).1

/-! ### One block -/

/-- The used packets of a block come first. -/
def UsedFirst (packets : List (List Int)) : Prop :=
  packets.Pairwise (fun p q => p = [] → q = [])

/-- The counters hold a summary of the data read so far. -/
def Summarised (cntrSiz : Nat) (data : Multiset Int) (cntr : List Counter) : Prop :=
  Counters cntr ∧ ∃ d, Summary cntrSiz data (bag cntr) d

lemma flatten_eq_nil_of_head {packets : List (List Int)} (h : UsedFirst ([] :: packets)) :
    packets.flatten = [] := by
  rw [List.flatten_eq_nil_iff]
  exact fun q hq => (List.pairwise_cons.mp h).1 q hq rfl

lemma summarised_processPackets {cntrSiz : Nat} {data : Multiset Int} {cntr : List Counter}
    {packets : List (List Int)} (hp : UsedFirst packets) (hs : Summarised cntrSiz data cntr) :
    Summarised cntrSiz (data + (packets.flatten : Multiset Int))
      (processPackets cntrSiz cntr packets) := by
  induction packets generalizing data cntr with
  | nil => simpa [processPackets] using hs
  | cons p ps ih =>
    rw [processPackets]
    split
    next hlen =>
      obtain rfl := List.eq_nil_of_length_eq_zero hlen
      simpa [flatten_eq_nil_of_head hp] using hs
    next =>
      obtain ⟨hc, d, hd⟩ := hs
      have hb := counters_sortedArrayToIdFreq p
      obtain ⟨d', hd'⟩ := summary_updateCounter hc hb hd
      have hnext := ih (List.pairwise_cons.mp hp).2 ⟨counters_updateCounter cntrSiz hc hb, d', hd'⟩
      rw [bag_sortedArrayToIdFreq, add_assoc, Multiset.coe_add] at hnext
      exact hnext

/-! ### The main loop over all elements -/

lemma usedFirst_fillAll (numThreads cntrSiz : Nat) (x : List Int) (currentLoc : Nat) :
    UsedFirst (fillAll numThreads cntrSiz x currentLoc) := by
  rw [fillAll_eq, UsedFirst, List.pairwise_map]
  refine List.pairwise_lt_range.imp ?_
  intro tid tid' hlt
  simp only [List.take_eq_nil_iff, List.drop_eq_nil_iff]
  rintro (h | h)
  · exact .inl h
  · exact .inr (h.trans (by gcongr))

lemma summarised_blocksAll {numThreads cntrSiz fuel currentLoc : Nat} {x : List Int}
    {data : Multiset Int} {cntr result : List Counter} (hs : Summarised cntrSiz data cntr)
    (hr : blocksAll numThreads cntrSiz x fuel currentLoc cntr = some result) :
    Summarised cntrSiz (data + (x.drop currentLoc : Multiset Int)) result := by
  induction fuel generalizing currentLoc data cntr with
  | zero =>
    rw [blocksAll] at hr
    split at hr
    · simp at hr
    next hloc =>
      obtain rfl := Option.some.inj hr
      simpa [List.drop_eq_nil_of_le (not_lt.mp hloc)] using hs
  | succ fuel ih =>
    rw [blocksAll] at hr
    split at hr
    next =>
      have hblock := summarised_processPackets
        (usedFirst_fillAll numThreads cntrSiz x currentLoc) hs
      have hnext := ih hblock hr
      rw [sum_length_fillAll, flatten_fillAll, drop_add_min, add_assoc, Multiset.coe_add,
        List.take_append_drop] at hnext
      exact hnext
    next hloc =>
      obtain rfl := Option.some.inj hr
      simpa [List.drop_eq_nil_of_le (not_lt.mp hloc)] using hs

/-! ### The main loop under a selector -/

/-- The selected elements of the rows that are still to be read. -/
def pick (rows : List (Int × Int)) : List Int := (rows.filter (fun r => r.2 ≠ 0)).map Prod.fst

lemma flatten_fillSelected (cntrSiz : Nat) (rows : List (Int × Int)) (threads : Nat)
    (packet : List Int) (h : threads = 0 → packet = []) :
    (fillSelected cntrSiz rows threads packet).1.flatten ++
      pick (fillSelected cntrSiz rows threads packet).2 = packet ++ pick rows := by
  fun_induction fillSelected cntrSiz rows threads packet with
  | case1 => simp [h rfl]
  | case2 => simp [pick]
  | case3 v rows threads packet ih =>
    rw [ih (by simp)]
    simp [pick]
  | case4 v c rows threads packet hc hlen next ih =>
    simp only [List.flatten_cons, List.append_assoc, next]
    rw [ih (fun _ => rfl)]
    simp [pick, hc]
  | case5 v c rows threads packet hc hlen ih =>
    rw [ih (by simp)]
    simp [pick, hc]

lemma usedFirst_fillSelected (cntrSiz : Nat) (rows : List (Int × Int)) (threads : Nat)
    (packet : List Int) : UsedFirst (fillSelected cntrSiz rows threads packet).1 := by
  fun_induction fillSelected cntrSiz rows threads packet with
  | case1 => exact List.Pairwise.nil
  | case2 threads packet =>
    refine List.pairwise_cons.mpr ⟨fun q hq _ => List.eq_of_mem_replicate hq, ?_⟩
    exact List.pairwise_replicate.mpr (.inr (fun _ => rfl))
  | case3 v rows threads packet ih => exact ih
  | case4 v c rows threads packet hc hlen next ih =>
    exact List.pairwise_cons.mpr ⟨fun q _ hnil => absurd hnil (by simp), ih⟩
  | case5 v c rows threads packet hc hlen ih => exact ih

lemma summarised_blocksSelected {numThreads cntrSiz fuel : Nat} {rows : List (Int × Int)}
    {data : Multiset Int} {cntr result : List Counter} (hs : Summarised cntrSiz data cntr)
    (hr : blocksSelected numThreads cntrSiz fuel rows cntr = some result) :
    Summarised cntrSiz (data + (pick rows : Multiset Int)) result := by
  have hdone : ∀ {rows : List (Int × Int)} {data : Multiset Int} {cntr : List Counter},
      rows.length = 0 → Summarised cntrSiz data cntr → some cntr = some result →
        Summarised cntrSiz (data + (pick rows : Multiset Int)) result := by
    rintro rows data cntr hrows hs' heq
    obtain rfl := Option.some.inj heq
    simpa [List.eq_nil_of_length_eq_zero hrows, pick] using hs'
  induction fuel generalizing rows data cntr with
  | zero =>
    rw [blocksSelected] at hr
    split at hr
    next hrows => exact hdone hrows hs hr
    · simp at hr
  | succ fuel ih =>
    rw [blocksSelected] at hr
    split at hr
    next hrows => exact hdone hrows hs hr
    next =>
      have hblock := summarised_processPackets
        (usedFirst_fillSelected cntrSiz rows numThreads []) hs
      have hnext := ih hblock hr
      rw [add_assoc, Multiset.coe_add,
        flatten_fillSelected cntrSiz rows numThreads [] (fun _ => rfl), List.nil_append] at hnext
      exact hnext

/-! ### The whole call -/

lemma length_selected (x : List Int) (cfld : Option (List Int)) :
    (selected x cfld).length = effSiz x cfld := by
  cases cfld with
  | none => rfl
  | some c => simp [selected, effSiz, List.countP_eq_length_filter]

/-- A selector that lets everything through selects the whole array. -/
lemma selected_eq_of_effSiz {x c : List Int} (h : effSiz x (some c) = x.length) :
    selected x (some c) = x := by
  have hzip : (selectorRows x c).length ≤ x.length := by simp [selectorRows]
  have hcount : (selectorRows x c).countP (fun r => r.2 ≠ 0) = (selectorRows x c).length :=
    le_antisymm List.countP_le_length (by rw [← effSiz, h]; exact hzip)
  have hall := List.filter_eq_self.mpr (List.countP_eq_length.mp hcount)
  have hlen : x.length ≤ c.length := by
    have hx : (selectorRows x c).length = x.length := hcount.symm.trans h
    rw [selectorRows, List.length_zip] at hx
    omega
  rw [selected, hall, selectorRows, List.map_fst_zip hlen]

lemma summarised_frequentCounters {cntrSiz : Nat} {x : List Int} {cfld : Option (List Int)}
    {cntr : List Counter} (h : frequentCounters cntrSiz x cfld = some cntr) :
    Summarised cntrSiz (selected x cfld : Multiset Int) cntr := by
  have hinit : Summarised cntrSiz 0 [] := ⟨Counters.nil, 0, Summary.zero cntrSiz⟩
  cases cfld with
  | none => simpa [selected] using summarised_blocksAll hinit h
  | some c =>
    simp only [frequentCounters] at h
    split at h
    next hall =>
      rw [selected_eq_of_effSiz hall]
      simpa using summarised_blocksAll hinit h
    next => simpa [selected, pick] using summarised_blocksSelected hinit h

/-- A successful call has run the main loop and wrote the counters above the threshold. -/
lemma approxFrequent_good {cntrSiz : Nat} {x : List Int} {cfld : Option (List Int)}
    {minFreq err outSiz : Int} {r : FrequentResult}
    (hr : approxFrequent cntrSiz x cfld minFreq err outSiz = some r) (hgood : r.estimateIsGood = 1) :
    (effSiz x cfld : Int) / (minFreq - err) ≤ outSiz ∧
      ∃ cntr, frequentCounters cntrSiz x cfld = some cntr ∧
        r.out = cntr.filter (fun c => decide (minFreq - err ≤ c.freq)) := by
  have habs : ∀ {s e : Int}, e ≠ 1 → some (⟨s, e, []⟩ : FrequentResult) = some r → False := by
    intro s e he heq
    obtain rfl := Option.some.inj heq
    exact he hgood
  simp only [approxFrequent] at hr
  split_ifs at hr with h1 h2 h3 h4 h5
  · exact (habs (by decide) hr).elim
  · exact (habs (by decide) hr).elim
  · exact (habs (by decide) hr).elim
  · exact (habs (by decide) hr).elim
  · exact (habs (by decide) hr).elim
  · obtain ⟨cntr, hcntr, rfl⟩ := Option.map_eq_some_iff.mp hr
    exact ⟨not_lt.mp h4, cntr, hcntr, rfl⟩

/-! ### The call returns -/

lemma numThreadsLoop_pos {cntrSiz fuel n : Nat} (hfit : cntrSiz * (1 + 2 + 6) ≤ maxSz) (hn : 0 < n) :
    0 < numThreadsLoop cntrSiz fuel n := by
  induction fuel generalizing n with
  | zero => exact hn
  | succ fuel ih =>
    rw [numThreadsLoop]
    split
    next hbig =>
      have hne : n ≠ 1 := by
        rintro rfl
        omega
      exact ih (by omega)
    next => exact hn

lemma blocksAll_returns {numThreads cntrSiz fuel currentLoc : Nat} {x : List Int}
    (hn : 0 < numThreads) (hc : 0 < cntrSiz) (hfuel : x.length - currentLoc ≤ fuel)
    (cntr : List Counter) : ∃ r, blocksAll numThreads cntrSiz x fuel currentLoc cntr = some r := by
  induction fuel generalizing currentLoc cntr with
  | zero => exact ⟨cntr, by rw [blocksAll, if_neg (by omega)]⟩
  | succ fuel ih =>
    rw [blocksAll]
    split
    next hloc =>
      have hpos : 0 < numThreads * cntrSiz := Nat.mul_pos hn hc
      apply ih
      rw [sum_length_fillAll]
      omega
    next => exact ⟨cntr, rfl⟩

lemma length_fillSelected_le (cntrSiz : Nat) (rows : List (Int × Int)) (threads : Nat)
    (packet : List Int) : (fillSelected cntrSiz rows threads packet).2.length ≤ rows.length := by
  fun_induction fillSelected cntrSiz rows threads packet with
  | case1 => exact le_rfl
  | case2 => exact le_rfl
  | case3 v rows threads packet ih => exact ih.trans (Nat.le_succ _)
  | case4 v c rows threads packet hc hlen next ih => exact ih.trans (Nat.le_succ _)
  | case5 v c rows threads packet hc hlen ih => exact ih.trans (Nat.le_succ _)

/-- A block reads at least one row. -/
lemma length_fillSelected_lt (cntrSiz : Nat) {rows : List (Int × Int)} {threads : Nat}
    (packet : List Int) (ht : 0 < threads) (hrows : rows.length ≠ 0) :
    (fillSelected cntrSiz rows threads packet).2.length < rows.length := by
  obtain ⟨t, rfl⟩ := Nat.exists_eq_add_of_lt ht
  cases rows with
  | nil => simp at hrows
  | cons r rows =>
    obtain ⟨v, c⟩ := r
    rw [Nat.zero_add, fillSelected, List.length_cons, Nat.lt_succ_iff]
    split_ifs
    · exact length_fillSelected_le _ _ _ _
    · exact length_fillSelected_le _ _ _ _
    · exact length_fillSelected_le _ _ _ _

lemma blocksSelected_returns {numThreads cntrSiz fuel : Nat} {rows : List (Int × Int)}
    (hn : 0 < numThreads) (hfuel : rows.length ≤ fuel) (cntr : List Counter) :
    ∃ r, blocksSelected numThreads cntrSiz fuel rows cntr = some r := by
  induction fuel generalizing rows cntr with
  | zero => exact ⟨cntr, by rw [blocksSelected, if_pos (by omega)]⟩
  | succ fuel ih =>
    rw [blocksSelected]
    split
    next => exact ⟨cntr, rfl⟩
    next hrows =>
      have hlt := length_fillSelected_lt cntrSiz [] hn hrows
      exact ih (by omega) _

/-- With at least one counter, which the source makes sure of, every call returns. -/
theorem approxFrequent_returns {cntrSiz : Nat} (hc : 0 < cntrSiz) (x : List Int)
    (cfld : Option (List Int)) (minFreq err outSiz : Int) :
    ∃ r, approxFrequent cntrSiz x cfld minFreq err outSiz = some r := by
  simp only [approxFrequent]
  split_ifs with h1 h2 h3 h4 h5
  · exact ⟨_, rfl⟩
  · exact ⟨_, rfl⟩
  · exact ⟨_, rfl⟩
  · exact ⟨_, rfl⟩
  · exact ⟨_, rfl⟩
  · have hn : 0 < numThreadsFor cntrSiz := numThreadsLoop_pos (not_lt.mp h5) (by decide)
    obtain ⟨r, hr⟩ : ∃ r, frequentCounters cntrSiz x cfld = some r := by
      cases cfld with
      | none => exact blocksAll_returns hn hc (Nat.sub_le _ _) []
      | some c =>
        simp only [frequentCounters]
        split
        · exact blocksAll_returns hn hc (Nat.sub_le _ _) []
        · exact blocksSelected_returns hn (by simp [selectorRows]) []
    exact ⟨_, by rw [hr]; rfl⟩

/-- The number of counters the source takes is large enough for the requested error. -/
theorem lt_cntrSizOf_mul {err : Nat} (herr : 0 < err) (n : Nat) :
    n < (cntrSizOf err n + 1) * err := by
  have hdiv : n < (n / err + 1) * err := by
    rw [← Nat.div_lt_iff_lt_mul herr]
    exact Nat.lt_succ_self _
  have hle : n / err + 1 ≤ cntrSizOf err n + 1 := by
    unfold cntrSizOf
    omega
  exact hdiv.trans_le (Nat.mul_le_mul_right err hle)

/-! ### The guarantee -/

/-- Counters that all reach `t` are at most as many as the data allows. -/
lemma length_mul_le_totalFreq {cs : List Counter} {t : Int} (h : ∀ c ∈ cs, t ≤ c.freq) :
    cs.length * t ≤ totalFreq cs := by
  induction cs with
  | nil => simp [totalFreq]
  | cons c cs ih =>
    simp only [List.forall_mem_cons] at h
    have hcs := ih h.2
    have htot : totalFreq (c :: cs) = c.freq + totalFreq cs := rfl
    rw [htot, List.length_cons]
    push_cast
    linarith [h.1]

lemma totalFreq_filter_le (cs : List Counter) (p : Counter → Bool) :
    totalFreq (cs.filter p) ≤ totalFreq cs :=
  List.Sublist.sum_le_sum (List.filter_sublist.map Counter.freq) (fun _ _ => Nat.zero_le _)

/-- The documented guarantee of `approx_frequent`, for every number of counters that is large
enough for the requested error. -/
theorem approxFrequent_guarantee (cntrSiz : Nat) (x : List Int) (cfld : Option (List Int))
    (minFreq err outSiz : Int) (r : FrequentResult) (herr : 0 < err) (hmin : err < minFreq)
    (hcap : (effSiz x cfld : Int) < (cntrSiz + 1) * err)
    (hr : approxFrequent cntrSiz x cfld minFreq err outSiz = some r)
    (hgood : r.status = 0 ∧ r.estimateIsGood = 1) :
    (∀ v, minFreq ≤ (selected x cfld).count v → ∃ c ∈ r.out, c.id = v) ∧
    (∀ c ∈ r.out, (selected x cfld).count c.id - err ≤ c.freq ∧
      c.freq ≤ (selected x cfld).count c.id) ∧
    (∀ v, (selected x cfld).count v < minFreq - err → ∀ c ∈ r.out, c.id ≠ v) ∧
    (r.out.map Counter.id).Nodup ∧
    r.out.length ≤ outSiz := by
  obtain ⟨hout, cntr, hcntr, hro⟩ := approxFrequent_good hr hgood.2
  obtain ⟨hcs, d, hsum⟩ := summarised_frequentCounters hcntr
  lift err to Nat using herr.le with e
  have hcard : (selected x cfld : Multiset Int).card = effSiz x cfld := by
    rw [Multiset.coe_card, length_selected]
  have hd : d < e := hsum.rounds_lt (by rw [hcard]; exact_mod_cast hcap)
  have hmem : ∀ c, c ∈ r.out ↔ c ∈ cntr ∧ minFreq - e ≤ c.freq := by
    intro c
    rw [hro, List.mem_filter, decide_eq_true_eq]
  have hle : ∀ v, (bag cntr).count v ≤ (selected x cfld).count v := fun v => by
    rw [← Multiset.coe_count]
    exact Multiset.count_le_of_le v hsum.le
  have hge : ∀ v, (selected x cfld).count v ≤ (bag cntr).count v + d := fun v => by
    rw [← Multiset.coe_count]
    exact hsum.count_le v
  have hfreq : ∀ c ∈ r.out, (bag cntr).count c.id = c.freq := fun c hc =>
    count_bag hcs ((hmem c).mp hc).1
  refine ⟨?_, ?_, ?_, ?_, ?_⟩
  · intro v hv
    have hv' := hge v
    obtain ⟨c, hc, rfl⟩ : ∃ c ∈ cntr, c.id = v :=
      mem_bag (Multiset.count_pos.mp (by omega))
    rw [count_bag hcs hc] at hv'
    exact ⟨c, (hmem c).mpr ⟨hc, by omega⟩, rfl⟩
  · intro c hc
    have h1 := hle c.id
    have h2 := hge c.id
    rw [hfreq c hc] at h1 h2
    exact ⟨by omega, by exact_mod_cast h1⟩
  · rintro v hv c hc rfl
    have h1 := hle c.id
    rw [hfreq c hc] at h1
    have h2 := ((hmem c).mp hc).2
    omega
  · rw [hro]
    exact List.pairwise_map.mpr ((hcs.ascending.filter _).imp (fun hab => hab.ne))
  · have hthr := length_mul_le_totalFreq (fun c hc => ((hmem c).mp hc).2)
    have htot : totalFreq r.out ≤ effSiz x cfld := by
      rw [hro, ← hcard]
      refine (totalFreq_filter_le _ _).trans ?_
      rw [← card_bag]
      exact Multiset.card_le_card hsum.le
    refine le_trans ?_ hout
    rw [Int.le_ediv_iff_mul_le (by omega)]
    exact hthr.trans (by exact_mod_cast htot)

/-- Two counters for seven elements: the rounds bring 7 and 9 down and keep 5. -/
theorem approxFrequent_guarantee_two_counters :
    ∃ r, approxFrequent 2 [5, 5, 9, 7, 5, 5, 7] none 4 3 7 = some r ∧
      (∃ c ∈ r.out, c.id = 5) ∧ r.out.length ≤ (7 : Int) := by
  have hr : approxFrequent 2 [5, 5, 9, 7, 5, 5, 7] none 4 3 7 = some ⟨0, 1, [⟨5, 3⟩, ⟨7, 1⟩]⟩ := by
    decide +kernel
  have h := approxFrequent_guarantee 2 [5, 5, 9, 7, 5, 5, 7] none 4 3 7 _ (by decide) (by decide)
    (by decide) hr ⟨rfl, rfl⟩
  exact ⟨_, hr, h.1 5 (by decide), h.2.2.2.2⟩

end Datacl
