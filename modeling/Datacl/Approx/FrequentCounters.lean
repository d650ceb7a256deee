import Datacl.Approx.Frequent
import Datacl.Lib.Frequency

/-!
# Counter arrays as multisets

A counter array stands for the multiset in which each identifier occurs as often as its
counter says. Merging adds these multisets and a round of `update_counter` is the abstract
`Frequency.decrement`, so every counter array the algorithm builds is a frequency summary of
the elements read so far.
-/

namespace Datacl
open Frequency (Summary)

/-- The multiset a counter array stands for. -/
def bag (cs : List Counter) : Multiset Int :=
  (cs.map (fun c => Multiset.replicate c.freq c.id)).sum

@[simp] lemma bag_nil : bag [] = 0 := rfl

@[simp] lemma bag_cons (c : Counter) (cs : List Counter) :
    bag (c :: cs) = Multiset.replicate c.freq c.id + bag cs := rfl

/-- Identifiers ascend strictly and every counter is in use. -/
structure Counters (cs : List Counter) : Prop where
  ascending : cs.Pairwise (fun a b => a.id < b.id)
  positive : ∀ c ∈ cs, 0 < c.freq

lemma Counters.nil : Counters [] := ⟨List.Pairwise.nil, by simp⟩

lemma counters_cons {c : Counter} {cs : List Counter} :
    Counters (c :: cs) ↔ 0 < c.freq ∧ (∀ b ∈ cs, c.id < b.id) ∧ Counters cs := by
  constructor
  · rintro ⟨ha, hp⟩
    rw [List.pairwise_cons] at ha
    exact ⟨hp c (by simp), ha.1, ha.2, fun b hb => hp b (by simp [hb])⟩
  · rintro ⟨hc, hlt, ha, hp⟩
    refine ⟨List.pairwise_cons.mpr ⟨hlt, ha⟩, ?_⟩
    intro b hb
    rcases List.mem_cons.mp hb with rfl | hb
    · exact hc
    · exact hp b hb

lemma mem_bag {cs : List Counter} {v : Int} (h : v ∈ bag cs) : ∃ c ∈ cs, c.id = v := by
  induction cs with
  | nil => simp at h
  | cons c cs ih =>
    rw [bag_cons, Multiset.mem_add] at h
    rcases h with h | h
    · exact ⟨c, by simp, (Multiset.eq_of_mem_replicate h).symm⟩
    · obtain ⟨b, hb, hv⟩ := ih h
      exact ⟨b, by simp [hb], hv⟩

lemma count_bag_of_lt {cs : List Counter} {v : Int} (h : ∀ b ∈ cs, v < b.id) :
    (bag cs).count v = 0 := by
  apply Multiset.count_eq_zero_of_notMem
  intro hv
  obtain ⟨b, hb, rfl⟩ := mem_bag hv
  exact lt_irrefl _ (h b hb)

/-- Each identifier has one counter, which holds its multiplicity. -/
lemma count_bag {cs : List Counter} (h : Counters cs) {c : Counter} (hc : c ∈ cs) :
    (bag cs).count c.id = c.freq := by
  induction cs with
  | nil => simp at hc
  | cons b cs ih =>
    obtain ⟨-, hlt, hcs⟩ := counters_cons.mp h
    rw [bag_cons, Multiset.count_add, Multiset.count_replicate]
    rcases List.mem_cons.mp hc with rfl | hc
    · rw [if_pos rfl, count_bag_of_lt hlt, add_zero]
    · rw [if_neg (hlt c hc).ne, zero_add, ih hcs hc]

lemma card_bag (cs : List Counter) : (bag cs).card = totalFreq cs := by
  induction cs with
  | nil => rfl
  | cons c cs ih =>
    rw [bag_cons, Multiset.card_add, Multiset.card_replicate, ih]
    rfl

lemma card_toFinset_bag {cs : List Counter} (h : Counters cs) :
    (bag cs).toFinset.card = cs.length := by
  have hset : (bag cs).toFinset = (cs.map Counter.id).toFinset := by
    ext v
    rw [Multiset.mem_toFinset, List.mem_toFinset, List.mem_map]
    constructor
    · exact mem_bag
    · rintro ⟨c, hc, rfl⟩
      rw [← Multiset.count_pos, count_bag h hc]
      exact h.positive c hc
  have hnodup : (cs.map Counter.id).Nodup :=
    List.Pairwise.map _ (fun a b hab => hab.ne) h.ascending
  rw [hset, List.toFinset_card_of_nodup hnodup, List.length_map]

/-! ### Merging -/

lemma bag_mergeCounters (cs bs : List Counter) :
    bag (mergeCounters cs bs) = bag cs + bag bs := by
  fun_induction mergeCounters cs bs with
  | case1 c cs b bs hlt ih => simp only [bag_cons, ih, add_assoc]
  | case2 c cs b bs hnlt hlt ih =>
    simp only [bag_cons, ih]
    exact add_left_comm _ _ _
  | case3 c cs b bs hnlt hngt ih =>
    have hid : c.id = b.id := le_antisymm (not_lt.mp hngt) (not_lt.mp hnlt)
    simp only [bag_cons, ih, hid, Multiset.replicate_add]
    abel
  | case4 c cs ih => simp only [bag_cons, ih, add_assoc]
  | case5 b bs ih => simp only [bag_cons, ih, bag_nil, zero_add]
  | case6 => rfl

lemma lt_of_mem_mergeCounters {cs bs : List Counter} {v : Int} (hc : ∀ c ∈ cs, v < c.id)
    (hb : ∀ b ∈ bs, v < b.id) : ∀ a ∈ mergeCounters cs bs, v < a.id := by
  fun_induction mergeCounters cs bs with
  | case1 c cs b bs hlt ih =>
    simp only [List.forall_mem_cons] at hc ⊢
    exact ⟨hc.1, ih hc.2 hb⟩
  | case2 c cs b bs hnlt hlt ih =>
    simp only [List.forall_mem_cons] at hb ⊢
    exact ⟨hb.1, ih hc hb.2⟩
  | case3 c cs b bs hnlt hngt ih =>
    simp only [List.forall_mem_cons] at hb hc ⊢
    exact ⟨hb.1, ih hc.2 hb.2⟩
  | case4 c cs ih =>
    simp only [List.forall_mem_cons] at hc ⊢
    exact ⟨hc.1, ih hc.2 hb⟩
  | case5 b bs ih =>
    simp only [List.forall_mem_cons] at hb ⊢
    exact ⟨hb.1, ih hc hb.2⟩
  | case6 => simp

lemma counters_mergeCounters {cs bs : List Counter} (hc : Counters cs) (hb : Counters bs) :
    Counters (mergeCounters cs bs) := by
  fun_induction mergeCounters cs bs with
  | case1 c cs b bs hlt ih =>
    obtain ⟨hpos, hasc, hcs⟩ := counters_cons.mp hc
    obtain ⟨-, hbasc, -⟩ := counters_cons.mp hb
    refine counters_cons.mpr ⟨hpos, lt_of_mem_mergeCounters hasc ?_, ih hcs hb⟩
    simp only [List.forall_mem_cons]
    exact ⟨hlt, fun a ha => hlt.trans (hbasc a ha)⟩
  | case2 c cs b bs hnlt hlt ih =>
    obtain ⟨hpos, hasc, hbs⟩ := counters_cons.mp hb
    obtain ⟨-, hcasc, -⟩ := counters_cons.mp hc
    refine counters_cons.mpr ⟨hpos, lt_of_mem_mergeCounters ?_ hasc, ih hc hbs⟩
    simp only [List.forall_mem_cons]
    exact ⟨hlt, fun a ha => hlt.trans (hcasc a ha)⟩
  | case3 c cs b bs hnlt hngt ih =>
    have hid : c.id = b.id := le_antisymm (not_lt.mp hngt) (not_lt.mp hnlt)
    obtain ⟨-, hcasc, hcs⟩ := counters_cons.mp hc
    obtain ⟨hpos, hbasc, hbs⟩ := counters_cons.mp hb
    rw [hid] at hcasc
    exact counters_cons.mpr ⟨Nat.add_pos_left hpos _, lt_of_mem_mergeCounters hcasc hbasc, ih hcs hbs⟩
  | case4 c cs ih =>
    obtain ⟨hpos, hasc, hcs⟩ := counters_cons.mp hc
    exact counters_cons.mpr ⟨hpos, lt_of_mem_mergeCounters hasc (by simp), ih hcs hb⟩
  | case5 b bs ih =>
    obtain ⟨hpos, hasc, hbs⟩ := counters_cons.mp hb
    exact counters_cons.mpr ⟨hpos, lt_of_mem_mergeCounters (by simp) hasc, ih hc hbs⟩
  | case6 => exact Counters.nil

/-! ### Decrement rounds -/

lemma mem_decrementRound {cs : List Counter} {a : Counter} :
    a ∈ decrementRound cs ↔ ∃ c ∈ cs, 1 < c.freq ∧ a = { c with freq := c.freq - 1 } := by
  simp only [decrementRound, List.mem_filter, List.mem_map, decide_eq_true_eq]
  constructor
  · rintro ⟨⟨c, hc, rfl⟩, hpos⟩
    exact ⟨c, hc, by simp only at hpos; omega, rfl⟩
  · rintro ⟨c, hc, hlt, rfl⟩
    exact ⟨⟨c, hc, rfl⟩, by simp only; omega⟩

lemma counters_decrementRound {cs : List Counter} (h : Counters cs) :
    Counters (decrementRound cs) where
  ascending := by
    unfold decrementRound
    apply List.Pairwise.filter
    rw [List.pairwise_map]
    exact h.ascending
  positive a ha := by
    obtain ⟨c, -, hlt, rfl⟩ := mem_decrementRound.mp ha
    simp only
    omega

lemma bag_decrementRound_cons (c : Counter) (cs : List Counter) :
    bag (decrementRound (c :: cs)) =
      Multiset.replicate (c.freq - 1) c.id + bag (decrementRound cs) := by
  by_cases hc : 0 < c.freq - 1
  · simp [decrementRound, hc]
  · have hzero : c.freq - 1 = 0 := by omega
    simp [decrementRound, hzero]

/-- A round of the source is the abstract round on the multiset of the counters. -/
lemma bag_decrementRound {cs : List Counter} (h : Counters cs) :
    bag (decrementRound cs) = Frequency.decrement (bag cs) := by
  ext v
  rw [Frequency.count_decrement]
  induction cs with
  | nil => rfl
  | cons c cs ih =>
    obtain ⟨-, hlt, hcs⟩ := counters_cons.mp h
    rw [bag_decrementRound_cons, bag_cons, Multiset.count_add, Multiset.count_add,
      Multiset.count_replicate, Multiset.count_replicate, ih hcs]
    by_cases hv : c.id = v
    · subst hv
      rw [if_pos rfl, if_pos rfl, count_bag_of_lt hlt]
      omega
    · rw [if_neg hv, if_neg hv]
      omega

lemma counters_shrink {cs : List Counter} (cntrSiz fuel : Nat) (h : Counters cs) :
    Counters (shrink cntrSiz fuel cs) := by
  induction fuel generalizing cs with
  | zero => exact h
  | succ fuel ih =>
    rw [shrink]
    split
    · exact ih (counters_decrementRound h)
    · exact h

lemma summary_shrink {data : Multiset Int} {cs : List Counter} {d : Nat} (cntrSiz fuel : Nat)
    (h : Counters cs) (hs : Summary cntrSiz data (bag cs) d) :
    ∃ d', Summary cntrSiz data (bag (shrink cntrSiz fuel cs)) d' := by
  induction fuel generalizing cs d with
  | zero => exact ⟨d, hs⟩
  | succ fuel ih =>
    rw [shrink]
    split
    next hlen =>
      apply ih (counters_decrementRound h)
      rw [bag_decrementRound h]
      exact hs.decrement (by rwa [card_toFinset_bag h])
    next => exact ⟨d, hs⟩

lemma totalFreq_decrementRound {cs : List Counter} (h : Counters cs) :
    totalFreq (decrementRound cs) + cs.length = totalFreq cs := by
  rw [← card_bag, bag_decrementRound h, ← card_toFinset_bag h, Frequency.card_decrement, card_bag]

/-- The rounds end with at most `cntr_siz` active counters. -/
lemma length_shrink_le {cs : List Counter} (cntrSiz fuel : Nat) (h : Counters cs)
    (hfuel : totalFreq cs ≤ fuel) : (shrink cntrSiz fuel cs).length ≤ cntrSiz := by
  induction fuel generalizing cs with
  | zero =>
    have hlen := totalFreq_decrementRound h
    rw [shrink]
    omega
  | succ fuel ih =>
    rw [shrink]
    split
    · have hlen := totalFreq_decrementRound h
      exact ih (counters_decrementRound h) (by omega)
    · omega

/-! ### One call of `update_counter` -/

theorem counters_updateCounter (cntrSiz : Nat) {cntr bf : List Counter} (hc : Counters cntr)
    (hb : Counters bf) : Counters (updateCounter cntrSiz cntr bf) :=
  counters_shrink _ _ (counters_mergeCounters hc hb)

theorem length_updateCounter_le (cntrSiz : Nat) {cntr bf : List Counter} (hc : Counters cntr)
    (hb : Counters bf) : (updateCounter cntrSiz cntr bf).length ≤ cntrSiz :=
  length_shrink_le _ _ (counters_mergeCounters hc hb) le_rfl

/-- The counters after an update summarise the data read before it and the packet. -/
theorem summary_updateCounter {cntrSiz d : Nat} {data : Multiset Int} {cntr bf : List Counter}
    (hc : Counters cntr) (hb : Counters bf) (hs : Summary cntrSiz data (bag cntr) d) :
    ∃ d', Summary cntrSiz (data + bag bf) (bag (updateCounter cntrSiz cntr bf)) d' := by
  have hm : Summary cntrSiz (data + bag bf) (bag (mergeCounters cntr bf)) d := by
    rw [bag_mergeCounters]
    exact hs.add (bag bf)
  exact summary_shrink _ _ (counters_mergeCounters hc hb) hm

end Datacl
