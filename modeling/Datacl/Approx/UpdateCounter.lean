import Datacl.Approx.FrequentCounters
import Datacl.Lib.CInt
import Datacl.Lib.InPlace
import Datacl.Lib.Looping

/-!
# `update_counter` on its arrays

The arrays `(cntr_id, cntr_freq)`, `(bf_id, bf_freq)` and `(temp_cntr_id, temp_cntr_freq)` with
their cursors and the `int` arithmetic of the source, where `updateCounter` has lists of
counters. Reads and writes are checked; what `malloc` returns holds anything.
-/

namespace Datacl
open CInt InPlace Looping

/-- An entry of two parallel arrays of `int`. -/
structure CntrEntry where
  id : Int
  freq : Int
  deriving DecidableEq, Repr

/-- The cursors `ii`, `jj`, `kk` and the arrays `(temp_cntr_id, temp_cntr_freq)`. -/
structure MergeState where
  ii : Nat
  jj : Nat
  kk : Nat
  temp : List CntrEntry

/-- One of the first three branches of the merge loop is taken; the fourth one leaves it. -/
def mergeMore (activeCntrSiz bfSiz : Nat) (s : MergeState) : Bool :=
  decide (s.ii < activeCntrSiz ∧ s.jj < bfSiz) || decide (s.ii < activeCntrSiz ∧ s.jj = bfSiz) ||
    decide (s.ii = activeCntrSiz ∧ s.jj < bfSiz)

/-- One round of the merge loop. -/
def mergeBody (cntr : List CntrEntry) (activeCntrSiz : Nat) (bf : List CntrEntry) (s : MergeState) :
    Option MergeState :=
  if s.ii < activeCntrSiz ∧ s.jj < bf.length then do
    let c ← cntr[s.ii]?
    let b ← bf[s.jj]?
    if c.id < b.id then
      let temp ← put s.temp s.kk c
      pure ⟨s.ii + 1, s.jj, s.kk + 1, temp⟩
    else if b.id < c.id then
      let temp ← put s.temp s.kk b
      pure ⟨s.ii, s.jj + 1, s.kk + 1, temp⟩
    else
      let temp ← put s.temp s.kk ⟨b.id, wrap 32 (b.freq + c.freq)⟩
      pure ⟨s.ii + 1, s.jj + 1, s.kk + 1, temp⟩
  else if s.ii < activeCntrSiz ∧ s.jj = bf.length then do
    let c ← cntr[s.ii]?
    let temp ← put s.temp s.kk c
    pure ⟨s.ii + 1, s.jj, s.kk + 1, temp⟩
  else do
    let b ← bf[s.jj]?
    let temp ← put s.temp s.kk b
    pure ⟨s.ii, s.jj + 1, s.kk + 1, temp⟩

/-- `temp_cntr_freq[kk]--` -/
def lowerFreq (e : CntrEntry) : CntrEntry := { e with freq := wrap 32 (e.freq - 1) }

/-- One round of the second loop, on `(temp_cntr_id, temp_cntr_freq)` and the active size. -/
def dropBody (s : List CntrEntry × Nat) : Option (List CntrEntry × Nat) := do
  let temp ← modifyAll lowerFreq s.2 s.1
  keepAll (fun e => decide (0 < e.freq)) s.2 temp

/-- Both calls of `memcpy`: the first `n` entries of `temp` replace those of `cntr`. -/
def memcpyCntr (cntr temp : List CntrEntry) (n : Nat) : Option (List CntrEntry) :=
  if n ≤ temp.length ∧ n ≤ cntr.length then some (temp.take n ++ cntr.drop n) else none

/-- `update_counter` on an array of `cntr_siz` entries, with the entries that `malloc` finds and
a bound on the rounds of each loop. Returns the array and its active size. -/
def updateCounterArrays (malloc : Nat → CntrEntry) (rounds : Nat) (cntr : List CntrEntry)
    (activeCntrSiz : Nat) (bf : List CntrEntry) : Option (List CntrEntry × Nat) :=
  let temp := (List.range (activeCntrSiz + bf.length)).map malloc
  match loop (mergeMore activeCntrSiz bf.length) (mergeBody cntr activeCntrSiz bf) rounds
      ⟨0, 0, 0, temp⟩ with
  | .done s =>
    match loop (fun t => decide (cntr.length < t.2)) dropBody rounds (s.temp, s.kk) with
    | .done (temp, active) => (memcpyCntr cntr temp active).map (fun out => (out, active))
    | _ => none
  | _ => none

/-! ### Entries and counters -/

def Counter.entry (c : Counter) : CntrEntry := ⟨c.id, c.freq⟩

@[simp] lemma Counter.entry_id (c : Counter) : c.entry.id = c.id := rfl

@[simp] lemma Counter.entry_freq (c : Counter) : c.entry.freq = c.freq := rfl

/-- The entries of a counter array: identifiers ascend strictly, counts are positive `int`s. -/
structure InUse (es : List CntrEntry) : Prop where
  ascending : es.Pairwise (fun a b => a.id < b.id)
  positive : ∀ e ∈ es, 0 < e.freq
  fits : ∀ e ∈ es, e.freq < 2 ^ 31

/-- The count of an identifier; one without an entry has count 0. -/
def freqOf (es : List CntrEntry) (v : Int) : Int :=
  ((es.find? (fun e => decide (e.id = v))).map CntrEntry.freq).getD 0

/-- The total weight of the entries. -/
def weight (es : List CntrEntry) : Int := (es.map CntrEntry.freq).sum

lemma InUse.counters {es : List CntrEntry} (h : InUse es) :
    ∃ cs : List Counter, es = cs.map Counter.entry ∧ Counters cs := by
  refine ⟨es.map (fun e => ⟨e.id, e.freq.toNat⟩), ?_, ?_, ?_⟩
  · have hid : ∀ e ∈ es, (Counter.entry ∘ fun e => ⟨e.id, e.freq.toNat⟩) e = id e := by
      intro e he
      have hpos := h.positive e he
      simp only [Function.comp_apply, Counter.entry, id_eq]
      rw [Int.toNat_of_nonneg hpos.le]
    rw [List.map_map, List.map_congr_left hid, List.map_id]
  · rw [List.pairwise_map]
    exact h.ascending
  · rintro c hc
    obtain ⟨e, he, rfl⟩ := List.mem_map.mp hc
    have hpos := h.positive e he
    simp only
    omega

lemma freqOf_map_entry {cs : List Counter} (h : Counters cs) (v : Int) :
    freqOf (cs.map Counter.entry) v = ((bag cs).count v : Nat) := by
  induction cs with
  | nil => rfl
  | cons c cs ih =>
    obtain ⟨-, hlt, hcs⟩ := counters_cons.mp h
    rw [bag_cons, Multiset.count_add, Multiset.count_replicate]
    by_cases hv : c.id = v
    · subst hv
      rw [if_pos rfl, count_bag_of_lt hlt, freqOf, List.map_cons,
        List.find?_cons_of_pos (by simp)]
      rfl
    · rw [if_neg hv, zero_add, ← ih hcs, freqOf, List.map_cons,
        List.find?_cons_of_neg (by simp [hv])]
      rfl

lemma weight_map_entry (cs : List Counter) :
    weight (cs.map Counter.entry) = totalFreq cs := by
  induction cs with
  | nil => rfl
  | cons c cs ih =>
    have hcons : weight ((c :: cs).map Counter.entry) = c.freq + weight (cs.map Counter.entry) := rfl
    have htotal : totalFreq (c :: cs) = c.freq + totalFreq cs := rfl
    rw [hcons, htotal, ih, Nat.cast_add]

lemma InUse.of_counters {cs : List Counter} (h : Counters cs) (hfits : ∀ c ∈ cs, c.freq < 2 ^ 31) :
    InUse (cs.map Counter.entry) where
  ascending := List.pairwise_map.mpr h.ascending
  positive := by
    rw [List.forall_mem_map]
    intro c hc
    exact Int.natCast_pos.mpr (h.positive c hc)
  fits := by
    rw [List.forall_mem_map]
    intro c hc
    have hlt := hfits c hc
    simp only [Counter.entry]
    omega

/-! ### The merge loop -/

/-- What is merged is in `temp`; the list model merges the rest. -/
structure MergeInv (cs bs : List Counter) (s : MergeState) : Prop where
  ii_le : s.ii ≤ cs.length
  jj_le : s.jj ≤ bs.length
  kk_le : s.kk ≤ s.ii + s.jj
  size : s.temp.length = cs.length + bs.length
  merged : s.temp.take s.kk ++ (mergeCounters (cs.drop s.ii) (bs.drop s.jj)).map Counter.entry =
    (mergeCounters cs bs).map Counter.entry

/-- Entries not yet merged. -/
def mergeMeasure (cs bs : List Counter) (s : MergeState) : Nat :=
  cs.length - s.ii + (bs.length - s.jj)

/-- The counter that the list model takes next is written to `temp[kk]`. -/
lemma MergeInv.write {cs bs : List Counter} {s : MergeState} (hs : MergeInv cs bs s) {c : Counter}
    {ii jj : Nat} (hii : ii ≤ cs.length) (hjj : jj ≤ bs.length) (hlt : s.ii + s.jj < ii + jj)
    (hnext : mergeCounters (cs.drop s.ii) (bs.drop s.jj) = c :: mergeCounters (cs.drop ii) (bs.drop jj)) :
    ∃ s', ((put s.temp s.kk c.entry).bind fun temp => some ⟨ii, jj, s.kk + 1, temp⟩) = some s' ∧
      MergeInv cs bs s' ∧ mergeMeasure cs bs s' < mergeMeasure cs bs s := by
  have hsize := hs.size
  have hkk := hs.kk_le
  have hii' := hs.ii_le
  have hjj' := hs.jj_le
  have hroom : s.kk < s.temp.length := by omega
  rw [put_of_lt hroom, Option.bind_some]
  refine ⟨_, rfl, ⟨hii, hjj, ?_, ?_, ?_⟩, ?_⟩
  · simp only
    omega
  · rw [List.length_set, hsize]
  · rw [take_set_self hroom, ← hs.merged, hnext, List.map_cons, List.append_assoc,
      List.singleton_append]
  · simp only [mergeMeasure]
    omega

section Merge
variable {cntr : List CntrEntry} {cs bs : List Counter} {s : MergeState}

lemma cntr_getElem? {n : Nat} (hcntr : cntr.take n = cs.map Counter.entry) {i : Nat}
    (hi : i < cs.length) : cntr[i]? = some cs[i].entry := by
  have hin : i < n := by
    have hlen := congrArg List.length hcntr
    rw [List.length_take, List.length_map] at hlen
    omega
  rw [← List.getElem?_take_of_lt hin, hcntr, List.getElem?_map, List.getElem?_eq_getElem hi,
    Option.map_some]

/-- Counts that fit are added as numbers. -/
lemma add_entry {b c : Counter} (hfits : c.freq + b.freq < 2 ^ 31) :
    (⟨b.entry.id, wrap 32 (b.entry.freq + c.entry.freq)⟩ : CntrEntry) =
      Counter.entry ⟨b.id, b.freq + c.freq⟩ := by
  have hwrap : wrap 32 ((b.freq : Int) + c.freq) = ((b.freq + c.freq : Nat) : Int) := by
    rw [Nat.cast_add]
    exact wrap_of_lt (by omega) (by omega)
  rw [Counter.entry_freq, Counter.entry_freq, hwrap, Counter.entry_id, Counter.entry]

lemma mergeBody_step (hcntr : cntr.take cs.length = cs.map Counter.entry)
    (hsum : ∀ c ∈ cs, ∀ b ∈ bs, c.id = b.id → c.freq + b.freq < 2 ^ 31) (hs : MergeInv cs bs s)
    (hmore : mergeMore cs.length bs.length s = true) :
    ∃ s', mergeBody cntr cs.length (bs.map Counter.entry) s = some s' ∧ MergeInv cs bs s' ∧
      mergeMeasure cs bs s' < mergeMeasure cs bs s := by
  have hii := hs.ii_le
  have hjj := hs.jj_le
  have hbf : ∀ j (hj : j < bs.length), (bs.map Counter.entry)[j]? = some bs[j].entry := by
    intro j hj
    rw [List.getElem?_map, List.getElem?_eq_getElem hj, Option.map_some]
  simp only [mergeMore, Bool.or_eq_true, decide_eq_true_eq] at hmore
  rw [mergeBody, List.length_map]
  by_cases hboth : s.ii < cs.length ∧ s.jj < bs.length
  · obtain ⟨hi, hj⟩ := hboth
    have hdropc : cs.drop s.ii = cs[s.ii] :: cs.drop (s.ii + 1) := List.drop_eq_getElem_cons hi
    have hdropb : bs.drop s.jj = bs[s.jj] :: bs.drop (s.jj + 1) := List.drop_eq_getElem_cons hj
    rw [if_pos ⟨hi, hj⟩, cntr_getElem? hcntr hi, hbf _ hj]
    simp only [Option.bind_eq_bind, Option.bind_some]
    rcases lt_trichotomy cs[s.ii].id bs[s.jj].id with hlt | heq | hgt
    · have hnext : mergeCounters (cs.drop s.ii) (bs.drop s.jj) =
          cs[s.ii] :: mergeCounters (cs.drop (s.ii + 1)) (bs.drop s.jj) := by
        rw [hdropc, hdropb, mergeCounters, if_pos hlt]
      rw [if_pos (show cs[s.ii].entry.id < bs[s.jj].entry.id from hlt)]
      exact hs.write (by omega) hjj (by omega) hnext
    · have hnext : mergeCounters (cs.drop s.ii) (bs.drop s.jj) =
          ⟨bs[s.jj].id, bs[s.jj].freq + cs[s.ii].freq⟩ ::
            mergeCounters (cs.drop (s.ii + 1)) (bs.drop (s.jj + 1)) := by
        rw [hdropc, hdropb, mergeCounters, if_neg heq.not_lt, if_neg heq.not_gt]
      have hfits := hsum cs[s.ii] (List.getElem_mem hi) bs[s.jj] (List.getElem_mem hj) heq
      have heq' : cs[s.ii].entry.id = bs[s.jj].entry.id := heq
      rw [if_neg heq'.not_lt, if_neg heq'.not_gt, add_entry hfits]
      exact hs.write (by omega) (by omega) (by omega) hnext
    · have hnext : mergeCounters (cs.drop s.ii) (bs.drop s.jj) =
          bs[s.jj] :: mergeCounters (cs.drop s.ii) (bs.drop (s.jj + 1)) := by
        rw [hdropc, hdropb, mergeCounters, if_neg hgt.not_gt, if_pos hgt]
      have hgt' : bs[s.jj].entry.id < cs[s.ii].entry.id := hgt
      rw [if_neg hgt'.not_gt, if_pos hgt']
      exact hs.write hii (by omega) (by omega) hnext
  · rw [if_neg hboth]
    by_cases hi : s.ii < cs.length
    · have hj : s.jj = bs.length := by omega
      have hnext : mergeCounters (cs.drop s.ii) (bs.drop s.jj) =
          cs[s.ii] :: mergeCounters (cs.drop (s.ii + 1)) (bs.drop s.jj) := by
        rw [List.drop_eq_getElem_cons hi, List.drop_eq_nil_of_le hj.ge, mergeCounters]
      rw [if_pos ⟨hi, hj⟩, cntr_getElem? hcntr hi, Option.bind_eq_bind, Option.bind_some]
      exact hs.write (by omega) hjj (by omega) hnext
    · have hj : s.jj < bs.length := by omega
      have hnext : mergeCounters (cs.drop s.ii) (bs.drop s.jj) =
          bs[s.jj] :: mergeCounters (cs.drop s.ii) (bs.drop (s.jj + 1)) := by
        rw [List.drop_eq_getElem_cons hj, List.drop_eq_nil_of_le (not_lt.mp hi), mergeCounters]
      rw [if_neg (fun h => hi h.1), hbf _ hj, Option.bind_eq_bind, Option.bind_some]
      exact hs.write hii (by omega) (by omega) hnext

/-- The merge loop writes the merge of the list model to the front of `temp`. -/
lemma mergeLoop_done (hcntr : cntr.take cs.length = cs.map Counter.entry)
    (hsum : ∀ c ∈ cs, ∀ b ∈ bs, c.id = b.id → c.freq + b.freq < 2 ^ 31)
    {temp : List CntrEntry} (htemp : temp.length = cs.length + bs.length) {rounds : Nat}
    (hrounds : cs.length + bs.length ≤ rounds) :
    ∃ s, loop (mergeMore cs.length bs.length) (mergeBody cntr cs.length (bs.map Counter.entry)) rounds
        ⟨0, 0, 0, temp⟩ = .done s ∧ s.kk ≤ s.temp.length ∧
      s.temp.take s.kk = (mergeCounters cs bs).map Counter.entry := by
  have hinv : MergeInv cs bs ⟨0, 0, 0, temp⟩ :=
    ⟨Nat.zero_le _, Nat.zero_le _, Nat.zero_le _, htemp, rfl⟩
  have hmeasure : mergeMeasure cs bs ⟨0, 0, 0, temp⟩ ≤ rounds := hrounds
  obtain ⟨s, hloop, hs, hmore⟩ :=
    loop_finishes (fun _ hs hmore => mergeBody_step hcntr hsum hs hmore) hinv hmeasure
  have hii := hs.ii_le
  have hjj := hs.jj_le
  have hkk := hs.kk_le
  have hsize := hs.size
  simp only [mergeMore, Bool.or_eq_false_iff, decide_eq_false_iff_not] at hmore
  have hmerged := hs.merged
  rw [List.drop_eq_nil_of_le (by omega), List.drop_eq_nil_of_le (by omega), mergeCounters,
    List.map_nil, List.append_nil] at hmerged
  exact ⟨s, hloop, by omega, hmerged⟩

end Merge

/-! ### Decrement rounds -/

/-- The entries in use are the counters that the list model shrinks with the fuel left. -/
structure DropInv (cntrSiz : Nat) (target : List Counter) (o : Nat × List Counter)
    (s : List CntrEntry × Nat) : Prop where
  active_le : s.2 ≤ s.1.length
  entries : s.1.take s.2 = o.2.map Counter.entry
  counters : Counters o.2
  fits : ∀ c ∈ o.2, c.freq < 2 ^ 31
  fuel : totalFreq o.2 ≤ o.1
  target : shrink cntrSiz o.1 o.2 = target

lemma DropInv.length {cntrSiz : Nat} {target : List Counter} {o : Nat × List Counter}
    {s : List CntrEntry × Nat} (hs : DropInv cntrSiz target o s) : o.2.length = s.2 := by
  have hlen := congrArg List.length hs.entries
  rw [List.length_take, List.length_map, min_eq_left hs.active_le] at hlen
  exact hlen.symm

lemma lowerFreq_entry {c : Counter} (hpos : 0 < c.freq) (hfits : c.freq < 2 ^ 31) :
    lowerFreq c.entry = Counter.entry { c with freq := c.freq - 1 } := by
  have hwrap : wrap 32 ((c.freq : Int) - 1) = ((c.freq - 1 : Nat) : Int) := by
    rw [Nat.cast_sub hpos, Nat.cast_one]
    exact wrap_of_lt (by omega) (by omega)
  rw [lowerFreq, Counter.entry, hwrap, Counter.entry]

/-- Lowering the counts and keeping the positive ones is a round of the list model. -/
lemma filter_lowerFreq {cs : List Counter} (h : Counters cs) (hfits : ∀ c ∈ cs, c.freq < 2 ^ 31) :
    (cs.map (fun c => lowerFreq c.entry)).filter (fun e => decide (0 < e.freq)) =
      (decrementRound cs).map Counter.entry := by
  have hlower : ∀ c ∈ cs, lowerFreq c.entry = Counter.entry { c with freq := c.freq - 1 } :=
    fun c hc => lowerFreq_entry (h.positive c hc) (hfits c hc)
  rw [List.map_congr_left hlower, decrementRound, List.filter_map, List.filter_map, List.map_map]
  congr 1
  apply List.filter_congr
  intro c hc
  simp only [Function.comp_apply, Counter.entry, Int.natCast_pos]

lemma DropInv.step {cntrSiz : Nat} {target : List Counter} {o : Nat × List Counter}
    {s : List CntrEntry × Nat} (hs : DropInv cntrSiz target o s) (hmore : cntrSiz < s.2) :
    ∃ s' o', dropBody s = some s' ∧ DropInv cntrSiz target o' s' ∧ o'.1 < o.1 := by
  obtain ⟨fuel, cs⟩ := o
  obtain ⟨temp, active⟩ := s
  have hlen : cs.length = active := hs.length
  have htotal := totalFreq_decrementRound hs.counters
  have hfuel := hs.fuel
  simp only at htotal hfuel hmore
  obtain ⟨f, rfl⟩ : ∃ f, fuel = f + 1 := ⟨fuel - 1, by omega⟩
  have hactive : active ≤ temp.length := hs.active_le
  have hlowered := modifyAll_eq lowerFreq hactive
  have hsame : ((temp.take active).map lowerFreq ++ temp.drop active).length = temp.length := by
    rw [List.length_append, List.length_map, ← List.length_append, List.take_append_drop]
  have hfront : ((temp.take active).map lowerFreq ++ temp.drop active).take active =
      cs.map (fun c => lowerFreq c.entry) := by
    have hact : ((temp.take active).map lowerFreq).length = active := by
      rw [List.length_map, List.length_take, min_eq_left hs.active_le]
    rw [List.take_append_of_le_length hact.ge, List.take_of_length_le hact.le, hs.entries,
      List.map_map]
    rfl
  obtain ⟨⟨temp', active'⟩, hrun, hk⟩ := keepAll_kept (fun e : CntrEntry => decide (0 < e.freq))
    (hactive.trans hsame.ge)
  have hentries : temp'.take active' = (decrementRound cs).map Counter.entry := by
    rw [hk.front, hfront, filter_lowerFreq hs.counters hs.fits]
  refine ⟨(temp', active'), (f, decrementRound cs), ?_, ⟨?_, hentries, ?_, ?_, ?_, ?_⟩,
    Nat.lt_succ_self f⟩
  · rw [dropBody, hlowered, Option.bind_eq_bind, Option.bind_some, hrun]
  · have hcount := hk.count
    rw [hfront, filter_lowerFreq hs.counters hs.fits, List.length_map] at hcount
    have hle : (decrementRound cs).length ≤ cs.length := by
      unfold decrementRound
      exact (List.length_filter_le _ _).trans_eq (List.length_map _)
    have hsize := hk.length
    simp only at hcount hsize ⊢
    omega
  · exact counters_decrementRound hs.counters
  · intro c hc
    obtain ⟨b, hb, -, rfl⟩ := mem_decrementRound.mp hc
    have hlt := hs.fits b hb
    simp only
    omega
  · simp only
    omega
  · rw [← hs.target]
    exact (if_pos (by rwa [hlen])).symm

/-- The second loop leaves what the list model shrinks to. -/
lemma dropLoop_done (cntrSiz : Nat) {cs : List Counter} {temp : List CntrEntry} {active rounds : Nat}
    (hactive : active ≤ temp.length) (hentries : temp.take active = cs.map Counter.entry)
    (h : Counters cs) (hfits : ∀ c ∈ cs, c.freq < 2 ^ 31) (hrounds : totalFreq cs ≤ rounds) :
    ∃ s : List CntrEntry × Nat,
      loop (fun t => decide (cntrSiz < t.2)) dropBody rounds (temp, active) = .done s ∧
        s.2 ≤ s.1.length ∧ s.2 ≤ cntrSiz ∧
        s.1.take s.2 = (shrink cntrSiz (totalFreq cs) cs).map Counter.entry ∧
        ∀ c ∈ shrink cntrSiz (totalFreq cs) cs, c.freq < 2 ^ 31 := by
  have hinv : DropInv cntrSiz (shrink cntrSiz (totalFreq cs) cs) (totalFreq cs, cs) (temp, active) :=
    ⟨hactive, hentries, h, hfits, le_rfl, rfl⟩
  obtain ⟨s, ⟨fuel, cs'⟩, hloop, hs, hstop⟩ :=
    loop_ends (fun _ _ hs hmore => hs.step (of_decide_eq_true hmore)) hinv hrounds
  have hle : s.2 ≤ cntrSiz := not_lt.mp (of_decide_eq_false hstop)
  have hdone : shrink cntrSiz fuel cs' = cs' := by
    have hlen : cs'.length = s.2 := hs.length
    cases fuel with
    | zero => rfl
    | succ f => exact if_neg (by omega)
  have htarget : shrink cntrSiz (totalFreq cs) cs = cs' := hs.target.symm.trans hdone
  rw [htarget]
  exact ⟨s, hloop, hs.active_le, hle, hs.entries, hs.fits⟩

/-- The rounds take one common number off every count and more than `cntr_siz` off the total. -/
lemma shrink_rounds (cntrSiz fuel : Nat) {cs : List Counter} (h : Counters cs) :
    ∃ d, (∀ v, (bag (shrink cntrSiz fuel cs)).count v = (bag cs).count v - d) ∧
      d * (cntrSiz + 1) + totalFreq (shrink cntrSiz fuel cs) ≤ totalFreq cs := by
  induction fuel generalizing cs with
  | zero => exact ⟨0, fun v => rfl, by rw [shrink]; omega⟩
  | succ fuel ih =>
    rw [shrink]
    split
    next hlen =>
      obtain ⟨d, hcount, htotal⟩ := ih (counters_decrementRound h)
      have hround := totalFreq_decrementRound h
      refine ⟨d + 1, fun v => ?_, ?_⟩
      · rw [hcount, bag_decrementRound h, Frequency.count_decrement, Nat.sub_sub, Nat.add_comm 1 d]
      · rw [Nat.succ_mul]
        omega
    next => exact ⟨0, fun v => rfl, by omega⟩

/-! ### One call of `update_counter` -/

lemma length_mallocCntr (malloc : Nat → CntrEntry) (n : Nat) :
    ((List.range n).map malloc).length = n := by
  rw [List.length_map, List.length_range]

lemma memcpyCntr_of_le {cntr temp : List CntrEntry} {n : Nat} (ht : n ≤ temp.length)
    (hc : n ≤ cntr.length) : ∃ out, memcpyCntr cntr temp n = some out ∧ out.length = cntr.length ∧
      out.take n = temp.take n := by
  have hlen : (temp.take n).length = n := by rw [List.length_take, min_eq_left ht]
  refine ⟨_, if_pos ⟨ht, hc⟩, ?_, ?_⟩
  · rw [List.length_append, hlen, List.length_drop]
    omega
  · rw [List.take_append_of_le_length hlen.ge, List.take_of_length_le hlen.le]

lemma totalFreq_mergeCounters (cs bs : List Counter) :
    totalFreq (mergeCounters cs bs) = totalFreq cs + totalFreq bs := by
  rw [← card_bag, bag_mergeCounters, Multiset.card_add, card_bag, card_bag]

lemma fits_mergeCounters {cs bs : List Counter} (hcs : Counters cs) (hbs : Counters bs)
    (hsum : ∀ v, (bag cs).count v + (bag bs).count v < 2 ^ 31) :
    ∀ c ∈ mergeCounters cs bs, c.freq < 2 ^ 31 := by
  intro c hc
  have hv := hsum c.id
  rwa [← Multiset.count_add, ← bag_mergeCounters, count_bag (counters_mergeCounters hcs hbs) hc] at hv

/-- Without overflow the arrays hold what `updateCounter` computes on lists of counters. -/
theorem updateCounterArrays_refines (malloc : Nat → CntrEntry) {cntr : List CntrEntry}
    {cs bs : List Counter} (hcs : Counters cs) (hbs : Counters bs)
    (hcntr : cntr.take cs.length = cs.map Counter.entry)
    (hsum : ∀ v, (bag cs).count v + (bag bs).count v < 2 ^ 31) {rounds : Nat}
    (hlen : cs.length + bs.length ≤ rounds) (htotal : totalFreq (mergeCounters cs bs) ≤ rounds) :
    ∃ out active,
      updateCounterArrays malloc rounds cntr cs.length (bs.map Counter.entry) = some (out, active) ∧
        out.length = cntr.length ∧ active ≤ cntr.length ∧
        out.take active = (updateCounter cntr.length cs bs).map Counter.entry ∧
        ∀ c ∈ updateCounter cntr.length cs bs, c.freq < 2 ^ 31 := by
  have hmerge : ∀ c ∈ cs, ∀ b ∈ bs, c.id = b.id → c.freq + b.freq < 2 ^ 31 := by
    intro c hc b hb hid
    have hv := hsum c.id
    rwa [count_bag hcs hc, hid, count_bag hbs hb] at hv
  obtain ⟨s, hloop, hkk, htemp⟩ := mergeLoop_done hcntr hmerge
    (length_mallocCntr malloc _) hlen
  obtain ⟨t, hdrop, hactive, hsiz, hfront, hfits⟩ := dropLoop_done cntr.length hkk htemp
    (counters_mergeCounters hcs hbs) (fits_mergeCounters hcs hbs hsum) htotal
  obtain ⟨out, hcopy, hout, htake⟩ := memcpyCntr_of_le hactive hsiz
  refine ⟨out, t.2, ?_, hout, hsiz, htake.trans hfront, hfits⟩
  simp only [updateCounterArrays, List.length_map, hloop, hdrop, hcopy, Option.map_some]

/-- One call takes a common number of rounds off all counts. -/
theorem updateCounterArrays_rounds (malloc : Nat → CntrEntry) (cntr bf : List CntrEntry)
    (activeCntrSiz : Nat) (hactive : activeCntrSiz ≤ cntr.length)
    (hcntr : InUse (cntr.take activeCntrSiz)) (hbf : InUse bf)
    (hsum : ∀ v, freqOf (cntr.take activeCntrSiz) v + freqOf bf v < 2 ^ 31) :
    ∃ rounds out active,
      updateCounterArrays malloc rounds cntr activeCntrSiz bf = some (out, active) ∧
        out.length = cntr.length ∧ active ≤ cntr.length ∧ InUse (out.take active) ∧
        ∃ d : Nat,
          (∀ v, freqOf (out.take active) v =
            max 0 (freqOf (cntr.take activeCntrSiz) v + freqOf bf v - d)) ∧
          d * (cntr.length + 1 : Int) ≤
            weight (cntr.take activeCntrSiz) + weight bf - weight (out.take active) := by
  obtain ⟨cs, hcs, hcounters⟩ := hcntr.counters
  obtain ⟨bs, rfl, hbs⟩ := hbf.counters
  have hlen : cs.length = activeCntrSiz := by
    have hmap := congrArg List.length hcs
    rw [List.length_take, List.length_map, min_eq_left hactive] at hmap
    exact hmap.symm
  subst hlen
  have hcount : ∀ v, (bag cs).count v + (bag bs).count v < 2 ^ 31 := by
    intro v
    have hv := hsum v
    rw [hcs, freqOf_map_entry hcounters, freqOf_map_entry hbs] at hv
    omega
  obtain ⟨out, active, hrun, hout, hle, htake, hfits⟩ := updateCounterArrays_refines malloc hcounters
    hbs hcs hcount (Nat.le_max_left _ _) (Nat.le_max_right _ _)
  obtain ⟨d, hd, hweight⟩ := shrink_rounds cntr.length (totalFreq (mergeCounters cs bs))
    (counters_mergeCounters hcounters hbs)
  have hnew : Counters (updateCounter cntr.length cs bs) := counters_updateCounter _ hcounters hbs
  rw [← updateCounter] at hd hweight
  refine ⟨_, out, active, hrun, hout, hle, ?_, d, ?_, ?_⟩
  · rw [htake]
    exact InUse.of_counters hnew hfits
  · intro v
    rw [htake, hcs, freqOf_map_entry hnew, freqOf_map_entry hcounters, freqOf_map_entry hbs, hd,
      bag_mergeCounters, Multiset.count_add]
    omega
  · rw [htake, hcs, weight_map_entry, weight_map_entry, weight_map_entry]
    rw [totalFreq_mergeCounters] at hweight
    have hcast : (d : Int) * (cntr.length + 1) + totalFreq (updateCounter cntr.length cs bs) ≤
        totalFreq cs + totalFreq bs := by exact_mod_cast hweight
    linarith

theorem updateCounterArrays_rounds_one_slot :
    ∃ rounds out active,
      updateCounterArrays (fun _ => ⟨0, 0⟩) rounds [⟨3, 2⟩] 1 [⟨3, 1⟩, ⟨7, 2⟩] = some (out, active) ∧
        out.length = 1 ∧ active ≤ 1 ∧ InUse (out.take active) ∧
        ∃ d : Nat,
          (∀ v, freqOf (out.take active) v =
            max 0 (freqOf [⟨3, 2⟩] v + freqOf [⟨3, 1⟩, ⟨7, 2⟩] v - d)) ∧
          d * ((1 : Nat) + 1 : Int) ≤
            weight [⟨3, 2⟩] + weight [⟨3, 1⟩, ⟨7, 2⟩] - weight (out.take active) := by
  have hcntr : InUse ([⟨3, 2⟩] : List CntrEntry) := ⟨by simp, by simp, by simp⟩
  have hbf : InUse ([⟨3, 1⟩, ⟨7, 2⟩] : List CntrEntry) := ⟨by simp, by simp, by simp⟩
  apply updateCounterArrays_rounds (fun _ => ⟨0, 0⟩) [⟨3, 2⟩] [⟨3, 1⟩, ⟨7, 2⟩] 1 le_rfl hcntr hbf
  intro v
  by_cases h3 : v = 3
  · subst h3
    decide
  · by_cases h7 : v = 7
    · subst h7
      decide
    · simp [freqOf, Ne.symm h3, Ne.symm h7]

/-- The counts of an identifier add up to more than an `int` holds. -/
theorem updateCounterArrays_overflows :
    InUse [⟨5, 2 ^ 31 - 1⟩] ∧ InUse [⟨5, 1⟩] ∧
      updateCounterArrays (fun _ => ⟨0, 0⟩) 3 [⟨5, 2 ^ 31 - 1⟩] 1 [⟨5, 1⟩] = some ([⟨5, -2 ^ 31⟩], 1) ∧
      ¬ InUse [⟨5, -2 ^ 31⟩] := by
  refine ⟨⟨by simp, by simp, by simp⟩, ⟨by simp, by simp, by simp⟩, by decide, ?_⟩
  intro h
  have hpos := h.positive ⟨5, -2 ^ 31⟩ List.mem_cons_self
  exact absurd hpos (by decide)

end Datacl
