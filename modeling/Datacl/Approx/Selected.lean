import Datacl.Lib.Chunks
import Datacl.Approx.FrequentGuarantee

/-!
# Packets under a selector

Both branches of `approx_frequent` hand the same packets to the counters: the elements, or the
selected elements, cut into chunks. The filling of the packets is also written down with the
indices of the source, where an access out of range has no result.
-/

namespace Datacl

open Chunks

/-! ### The filling of the packets, index by index -/

/-- `inputPackets`, `inputPacketsUsedSiz` and `tid`. -/
structure FillState where
  packets : List (List Int)
  usedSiz : List Nat
  tid : Nat
  deriving DecidableEq, Repr

/-- `inputPackets[tid][pos] = v`; `none` if an index is out of range. -/
def writePacket (packets : List (List Int)) (tid pos : Nat) (v : Int) : Option (List (List Int)) :=
  match packets[tid]? with
  | none => none
  | some p => if pos < p.length then some (packets.set tid (p.set pos v)) else none

/-- The body of the filling loop for a selected element. -/
def fillElem (cntrSiz : Nat) (v : Int) (s : FillState) : Option FillState :=
  match s.usedSiz[s.tid]? with
  | none => none
  | some used =>
    (writePacket s.packets s.tid used v).map fun packets =>
      { packets := packets
        usedSiz := s.usedSiz.set s.tid (used + 1)
        tid := if used + 1 = cntrSiz then s.tid + 1 else s.tid }

/-- The filling loop over the unread rows, and the rows it leaves; `none` if an index is out of
range. -/
def fillIndexed (numThreads cntrSiz : Nat) :
    List (Int × Int) → FillState → Option (FillState × List (Int × Int))
  | [], s => some (s, [])
  | (v, c) :: rows, s =>
    if numThreads ≤ s.tid then some (s, (v, c) :: rows)
    else if c = 0 then fillIndexed numThreads cntrSiz rows s
    else
      match fillElem cntrSiz v s with
      | none => none
      | some s' => fillIndexed numThreads cntrSiz rows s'

/-- The used part of each packet. -/
def FillState.used (s : FillState) : List (List Int) :=
  List.zipWith (fun p n => p.take n) s.packets s.usedSiz

/-- The buffers as they are allocated, whatever they hold. -/
structure Allocated (numThreads cntrSiz : Nat) (packets : List (List Int)) : Prop where
  number : packets.length = numThreads
  size : ∀ p ∈ packets, p.length = cntrSiz

section Filling

variable {numThreads cntrSiz : Nat}

/-- The state of the filling: the packets `done` are full, and `n` elements of `cur` are used. -/
def filling (cntrSiz : Nat) (done : List (List Int)) (cur : List Int) (rest : List (List Int))
    (n : Nat) : FillState where
  packets := done ++ cur :: rest
  usedSiz := List.replicate done.length cntrSiz ++ n :: List.replicate rest.length 0
  tid := done.length

lemma fillElem_filling {done rest : List (List Int)} {cur : List Int} {n : Nat} (hn : n < cur.length)
    (v : Int) :
    fillElem cntrSiz v (filling cntrSiz done cur rest n) =
      some { filling cntrSiz done (cur.set n v) rest (n + 1) with
        tid := if n + 1 = cntrSiz then done.length + 1 else done.length } := by
  have hused : (filling cntrSiz done cur rest n).usedSiz[done.length]? = some n := by
    simp [filling]
  have hpacket : (done ++ cur :: rest)[done.length]? = some cur := by simp
  have hwrite : writePacket (done ++ cur :: rest) done.length n v =
      some (done ++ cur.set n v :: rest) := by
    rw [writePacket, hpacket]
    simp [hn]
  unfold fillElem
  simp only [filling] at hused ⊢
  rw [hused]
  simp [hwrite]

lemma used_filling {done : List (List Int)} (rest : List (List Int)) (hdone : ∀ p ∈ done, p.length = cntrSiz)
    (cur : List Int) (n : Nat) :
    (filling cntrSiz done cur rest n).used =
      done ++ cur.take n :: List.replicate rest.length [] := by
  have hfull : List.zipWith (fun p n => List.take n p) done (List.replicate done.length cntrSiz) =
      done := by
    induction done with
    | nil => rfl
    | cons p done ih =>
      rw [List.forall_mem_cons] at hdone
      rw [List.length_cons, List.replicate_succ, List.zipWith_cons_cons, ih hdone.2,
        List.take_of_length_le hdone.1.le]
  have hempty : List.zipWith (fun p n => List.take n p) rest (List.replicate rest.length 0) =
      List.replicate rest.length [] := by
    induction rest with
    | nil => rfl
    | cons p rest ih =>
      rw [List.length_cons, List.replicate_succ, List.replicate_succ, List.zipWith_cons_cons, ih,
        List.take_zero]
  unfold FillState.used filling
  rw [List.zipWith_append (by simp), hfull, List.zipWith_cons_cons, hempty]

/-- Once all packets are full the loop is left. -/
lemma fillIndexed_full {s : FillState} (h : numThreads ≤ s.tid) (rows : List (Int × Int)) :
    fillIndexed numThreads cntrSiz rows s = some (s, rows) := by
  cases rows with
  | nil => rfl
  | cons r rows => rw [fillIndexed, if_pos h]

/-- Going on with the next packet. -/
lemma filling_next (done rest : List (List Int)) (cur next : List Int) :
    ({ filling cntrSiz done cur (next :: rest) cntrSiz with tid := done.length + 1 } : FillState) =
      filling cntrSiz (done ++ [cur]) next rest 0 := by
  unfold filling
  rw [List.length_append, List.length_singleton, List.replicate_add, List.length_cons,
    List.replicate_succ, List.append_assoc, List.append_assoc]
  rfl

lemma Allocated.set {done rest : List (List Int)} {cur : List Int}
    (h : Allocated numThreads cntrSiz (done ++ cur :: rest)) (n : Nat) (v : Int) :
    Allocated numThreads cntrSiz (done ++ cur.set n v :: rest) := by
  obtain ⟨hnumber, hsize⟩ := h
  constructor
  · simpa using hnumber
  · simpa [or_imp, forall_and] using hsize

/-- How the loop ends: all packets are full, right after a selected row, or the rows have come to an
end. -/
inductive FillEnd (numThreads cntrSiz : Nat) (rows : List (Int × Int)) :
    FillState → List (Int × Int) → Prop
  | full {packets : List (List Int)} {pre left : List (Int × Int)} {v c : Int}
      (alloc : Allocated numThreads cntrSiz packets) (hc : c ≠ 0)
      (hrows : rows = pre ++ (v, c) :: left) :
      FillEnd numThreads cntrSiz rows
        ⟨packets, List.replicate numThreads cntrSiz, numThreads⟩ left
  | partway {done rest : List (List Int)} {cur : List Int} {n : Nat} (hn : n < cntrSiz)
      (alloc : Allocated numThreads cntrSiz (done ++ cur :: rest)) :
      FillEnd numThreads cntrSiz rows (filling cntrSiz done cur rest n) []

lemma FillEnd.alloc {rows left : List (Int × Int)} {s : FillState}
    (h : FillEnd numThreads cntrSiz rows s left) : Allocated numThreads cntrSiz s.packets := by
  cases h with
  | full alloc _ _ => exact alloc
  | partway _ alloc => exact alloc

lemma FillEnd.cons {rows left : List (Int × Int)} {s : FillState}
    (h : FillEnd numThreads cntrSiz rows s left) (r : Int × Int) :
    FillEnd numThreads cntrSiz (r :: rows) s left := by
  cases h with
  | full alloc hc hrows =>
    rw [hrows, ← List.cons_append]
    exact .full alloc hc rfl
  | partway hn alloc => exact .partway hn alloc

/-- The filling stays within the packets and leaves what `fillSelected` says. -/
lemma fillIndexed_filling (rows : List (Int × Int)) {done rest : List (List Int)} {cur : List Int}
    {n : Nat} (hn : n < cntrSiz) (halloc : Allocated numThreads cntrSiz (done ++ cur :: rest)) :
    ∃ s, fillIndexed numThreads cntrSiz rows (filling cntrSiz done cur rest n) =
        some (s, (fillSelected cntrSiz rows (rest.length + 1) (cur.take n)).2) ∧
      s.used = done ++ (fillSelected cntrSiz rows (rest.length + 1) (cur.take n)).1 ∧
      FillEnd numThreads cntrSiz rows s
        (fillSelected cntrSiz rows (rest.length + 1) (cur.take n)).2 := by
  have hthreads := halloc.number
  rw [List.length_append, List.length_cons] at hthreads
  have hdone : ∀ p ∈ done, p.length = cntrSiz := fun p hp =>
    halloc.size p (List.mem_append_left _ hp)
  induction rows generalizing done cur rest n with
  | nil =>
    refine ⟨_, rfl, ?_, .partway hn halloc⟩
    rw [used_filling rest hdone, fillSelected]
  | cons r rows ih =>
    obtain ⟨v, c⟩ := r
    have hlt : ¬ numThreads ≤ (filling cntrSiz done cur rest n).tid := by
      change ¬ numThreads ≤ done.length
      omega
    have hcur : cur.length = cntrSiz := halloc.size cur (by simp)
    have htake : (cur.set n v).take (n + 1) = cur.take n ++ [v] := by
      rw [List.take_add_one, List.take_set_of_le le_rfl]
      simp [hcur, hn]
    have hlen : (cur.take n ++ [v]).length = n + 1 := by
      rw [← htake, List.length_take, List.length_set, hcur, Nat.min_eq_left hn]
    rw [fillIndexed, if_neg hlt, fillSelected]
    by_cases h0 : c = 0
    · rw [if_pos h0, if_pos h0]
      obtain ⟨s, hs, hused, hend⟩ := ih hn halloc hthreads hdone
      exact ⟨s, hs, hused, hend.cons _⟩
    rw [if_neg h0, if_neg h0, fillElem_filling (hcur ▸ hn), hlen]
    dsimp only
    by_cases hfull : n + 1 = cntrSiz
    · have hcur' : cur.take n ++ [v] = cur.set n v := by
        rw [← htake, List.take_of_length_le (by rw [List.length_set]; omega)]
      rw [if_pos hfull, if_pos hfull, hfull, hcur']
      cases rest with
      | nil =>
        rw [List.length_nil, Nat.zero_add] at hthreads
        have hleft : fillSelected cntrSiz rows 0 [] = ([], rows) := by rw [fillSelected]
        rw [List.length_nil, hleft]
        have hstate : ({ filling cntrSiz done (cur.set n v) [] cntrSiz with
            tid := done.length + 1 } : FillState) =
              ⟨done ++ [cur.set n v], List.replicate numThreads cntrSiz, numThreads⟩ := by
          rw [← hthreads, List.replicate_add]
          rfl
        refine ⟨{ filling cntrSiz done (cur.set n v) [] cntrSiz with tid := done.length + 1 },
          fillIndexed_full hthreads.ge rows, ?_, ?_⟩
        swap
        · rw [hstate]
          exact .full (halloc.set n v) h0 (List.nil_append _).symm
        have hused := used_filling [] hdone (cur.set n v) cntrSiz
        rw [List.take_of_length_le (by rw [List.length_set]; omega)] at hused
        exact hused
      | cons next rest =>
        rw [filling_next]
        have halloc' := halloc.set n v
        rw [List.append_cons] at halloc'
        obtain ⟨s, hs, hused, hend⟩ := ih (n := 0) (by omega) halloc'
          (by simp at hthreads ⊢; omega) fun p hp => halloc'.size p (List.mem_append_left _ hp)
        refine ⟨s, hs, ?_, hend.cons _⟩
        rw [hused, List.append_assoc]
        rfl
    · rw [if_neg hfull, if_neg hfull]
      have hnext := ih (n := n + 1) (by omega) (halloc.set n v) hthreads hdone
      rw [htake] at hnext
      obtain ⟨s, hs, hused, hend⟩ := hnext
      exact ⟨s, hs, hused, hend.cons _⟩

/-- The filling of one block, from any contents of the buffers. -/
lemma fillIndexed_eq (hn : 0 < numThreads) (hc : 0 < cntrSiz) (rows : List (Int × Int))
    {packets : List (List Int)} (halloc : Allocated numThreads cntrSiz packets) :
    ∃ s, fillIndexed numThreads cntrSiz rows ⟨packets, List.replicate numThreads 0, 0⟩ =
        some (s, (fillSelected cntrSiz rows numThreads []).2) ∧
      s.used = (fillSelected cntrSiz rows numThreads []).1 ∧
      FillEnd numThreads cntrSiz rows s (fillSelected cntrSiz rows numThreads []).2 := by
  cases packets with
  | nil => exact absurd halloc.number hn.ne
  | cons cur rest =>
    have hnumber : rest.length + 1 = numThreads := halloc.number
    have hstart : (⟨cur :: rest, List.replicate numThreads 0, 0⟩ : FillState) =
        filling cntrSiz [] cur rest 0 := by
      rw [← hnumber]
      rfl
    have halloc' : Allocated numThreads cntrSiz ([] ++ cur :: rest) := halloc
    obtain ⟨s, hs, hused, hend⟩ := fillIndexed_filling rows hc halloc'
    rw [hnumber] at hs hused hend
    rw [hstart]
    exact ⟨s, hs, hused, hend⟩

end Filling

/-! ### The packets that are processed -/

/-- Step (1): the used part of each packet is sorted in place. -/
def sortPackets (s : FillState) : List (List Int) :=
  List.zipWith (fun p n => qsortAscI4 (p.take n) ++ p.drop n) s.packets s.usedSiz

/-- The packets up to the first unused one. -/
def usedPackets (packets : List (List Int)) : List (List Int) :=
  packets.takeWhile fun p => p.length ≠ 0

/-- Steps (2) and (3) for sorted packets. -/
def feedPackets (cntrSiz : Nat) (cntr : List Counter) (packets : List (List Int)) : List Counter :=
  packets.foldl (fun cntr p => updateCounter cntrSiz cntr (sortedArrayToIdFreq p)) cntr

/-- The sorted packets of all blocks when every element is processed; `none` if the loop does not
end. -/
def packetsAll (numThreads cntrSiz : Nat) (x : List Int) : Nat → Nat → Option (List (List Int))
  | 0, currentLoc => if currentLoc < x.length then none else some []
  | fuel + 1, currentLoc =>
    if currentLoc < x.length then
      let packets := fillAll numThreads cntrSiz x currentLoc
      (packetsAll numThreads cntrSiz x fuel (currentLoc + (packets.map List.length).sum)).map
        ((usedPackets packets).map qsortAscI4 ++ ·)
    else some []

/-- The sorted packets of all blocks under a selector, filled index by index; `none` if the loop
does not end or an index is out of range. -/
def packetsSelected (numThreads cntrSiz : Nat) :
    Nat → List (Int × Int) → List (List Int) → Option (List (List Int))
  | 0, rows, _ => if rows.length = 0 then some [] else none
  | fuel + 1, rows, packets =>
    if rows.length = 0 then some []
    else
      match fillIndexed numThreads cntrSiz rows ⟨packets, List.replicate numThreads 0, 0⟩ with
      | none => none
      | some (s, rest) =>
        (packetsSelected numThreads cntrSiz fuel rest (sortPackets s)).map
          ((usedPackets s.used).map qsortAscI4 ++ ·)

section Packets

variable {numThreads cntrSiz : Nat}

lemma processPackets_eq (cntr : List Counter) (packets : List (List Int)) :
    processPackets cntrSiz cntr packets =
      feedPackets cntrSiz cntr ((usedPackets packets).map qsortAscI4) := by
  induction packets generalizing cntr with
  | nil => rfl
  | cons p ps ih =>
    rw [processPackets, usedPackets]
    split_ifs with hp
    · rw [List.takeWhile_cons_of_neg (by simpa using hp)]
      rfl
    · rw [List.takeWhile_cons_of_pos (by simpa using hp), ih]
      rfl

lemma usedPackets_fillAll (hc : 0 < cntrSiz) (x : List Int) (currentLoc : Nat) :
    usedPackets (fillAll numThreads cntrSiz x currentLoc) =
      chunks cntrSiz ((x.drop currentLoc).take (numThreads * cntrSiz)) := by
  rw [← takeWhile_slices hc, fillAll_eq, usedPackets]
  simp only [List.drop_drop]

/-- The chunks of the elements that a block reads come first. -/
lemma usedPackets_fillSelected (hc : 0 < cntrSiz) (rows : List (Int × Int)) (threads : Nat)
    (packet : List Int) (h : threads = 0 → packet = []) (hlt : packet.length < cntrSiz) :
    usedPackets (fillSelected cntrSiz rows threads packet).1 ++
      chunks cntrSiz (pick (fillSelected cntrSiz rows threads packet).2) =
        chunks cntrSiz (packet ++ pick rows) := by
  fun_induction fillSelected cntrSiz rows threads packet with
  | case1 rows packet => simp [h rfl, usedPackets]
  | case2 threads packet =>
    have hempty : usedPackets (List.replicate threads []) = [] := by
      cases threads with
      | zero => rfl
      | succ t => simp [usedPackets, List.replicate_succ]
    by_cases hp : packet = []
    · simp [hp, usedPackets, pick]
    · have hlen : packet.length ≠ 0 := by simpa using hp
      have hcons : usedPackets (packet :: List.replicate threads []) =
          packet :: usedPackets (List.replicate threads []) :=
        List.takeWhile_cons_of_pos (by simpa using hlen)
      rw [hcons, hempty]
      simp [pick, chunks_short hp hlt]
  | case3 v rows threads packet ih =>
    rw [ih (by simp) hlt]
    simp [pick]
  | case4 v c rows threads packet hc0 hlen next ih =>
    have hne : (packet ++ [v]).length ≠ 0 := by simp
    have hpick : pick ((v, c) :: rows) = v :: pick rows := by simp [pick, hc0]
    have hcons : usedPackets ((packet ++ [v]) :: next.1) = (packet ++ [v]) :: usedPackets next.1 :=
      List.takeWhile_cons_of_pos (by simp)
    have hnext := ih (fun _ => rfl) hc
    rw [List.nil_append] at hnext
    rw [hcons, List.cons_append, hnext, hpick, List.append_cons packet v (pick rows),
      chunks_append hc hlen]
  | case5 v c rows threads packet hc0 hlen ih =>
    have hpick : pick ((v, c) :: rows) = v :: pick rows := by simp [pick, hc0]
    have hshort : (packet ++ [v]).length < cntrSiz := by
      rw [List.length_append, List.length_singleton] at hlen ⊢
      omega
    rw [ih (by simp) hshort, hpick, ← List.append_cons]

lemma length_fillSelected (rows : List (Int × Int)) (threads : Nat) (packet : List Int) :
    (fillSelected cntrSiz rows threads packet).1.length = threads := by
  fun_induction fillSelected cntrSiz rows threads packet with
  | case1 => rfl
  | case2 => simp
  | case3 v rows threads packet ih => exact ih
  | case4 v c rows threads packet _ _ next ih => rw [List.length_cons, ih]
  | case5 v c rows threads packet _ _ ih => exact ih

/-- Sorting keeps the buffers as large as they are. -/
lemma Allocated.sortPackets {s : FillState} (h : Allocated numThreads cntrSiz s.packets)
    (hused : s.used.length = numThreads) :
    Allocated numThreads cntrSiz (Datacl.sortPackets s) := by
  constructor
  · rw [FillState.used, List.length_zipWith] at hused
    rw [Datacl.sortPackets, List.length_zipWith, hused]
  · intro p hp
    obtain ⟨i, hi, rfl⟩ := List.getElem_of_mem hp
    rw [Datacl.sortPackets, List.length_zipWith] at hi
    simp only [Datacl.sortPackets, List.getElem_zipWith]
    rw [List.length_append, (qsortAscI4_perm _).length_eq, ← List.length_append,
      List.take_append_drop]
    exact h.size _ (List.getElem_mem _)

lemma blocksAll_eq (x : List Int) (fuel currentLoc : Nat) (cntr : List Counter) :
    blocksAll numThreads cntrSiz x fuel currentLoc cntr =
      (packetsAll numThreads cntrSiz x fuel currentLoc).map (feedPackets cntrSiz cntr) := by
  induction fuel generalizing currentLoc cntr with
  | zero =>
    rw [blocksAll, packetsAll]
    split_ifs with hloc
    · rfl
    · rfl
  | succ fuel ih =>
    rw [blocksAll, packetsAll]
    split_ifs with hloc
    · rw [ih, processPackets_eq, Option.map_map]
      congr 1
      funext ps
      exact (List.foldl_append ..).symm
    · rfl

lemma packetsAll_eq (hn : 0 < numThreads) (hc : 0 < cntrSiz) (x : List Int) (fuel currentLoc : Nat)
    (hfuel : x.length - currentLoc ≤ fuel) :
    packetsAll numThreads cntrSiz x fuel currentLoc =
      some ((chunks cntrSiz (x.drop currentLoc)).map qsortAscI4) := by
  induction fuel generalizing currentLoc with
  | zero =>
    rw [packetsAll, if_neg (by omega), List.drop_eq_nil_of_le (by omega), chunks_nil]
    rfl
  | succ fuel ih =>
    rw [packetsAll]
    split_ifs with hloc
    · have hpos : 0 < numThreads * cntrSiz := Nat.mul_pos hn hc
      dsimp only
      rw [sum_length_fillAll, ih _ (by omega), Option.map_some, usedPackets_fillAll hc,
        ← List.map_append, drop_add_min, chunks_take_append_drop hc]
    · rw [List.drop_eq_nil_of_le (by omega), chunks_nil]
      rfl

lemma packetsSelected_eq (hn : 0 < numThreads) (hc : 0 < cntrSiz) (fuel : Nat)
    {rows : List (Int × Int)} (hfuel : rows.length ≤ fuel) {packets : List (List Int)}
    (halloc : Allocated numThreads cntrSiz packets) :
    packetsSelected numThreads cntrSiz fuel rows packets =
      some ((chunks cntrSiz (pick rows)).map qsortAscI4) := by
  induction fuel generalizing rows packets with
  | zero =>
    obtain rfl := List.eq_nil_of_length_eq_zero (Nat.le_zero.mp hfuel)
    simp [packetsSelected, pick]
  | succ fuel ih =>
    rw [packetsSelected]
    by_cases hrows : rows.length = 0
    · obtain rfl := List.eq_nil_of_length_eq_zero hrows
      simp [pick]
    · obtain ⟨s, hs, hused, hend⟩ := fillIndexed_eq hn hc rows halloc
      have hlt := length_fillSelected_lt cntrSiz [] hn hrows
      have hsorted : Allocated numThreads cntrSiz (sortPackets s) :=
        hend.alloc.sortPackets (by rw [hused, length_fillSelected])
      rw [if_neg hrows, hs]
      dsimp only
      rw [ih (by omega) hsorted, Option.map_some, ← List.map_append, hused,
        usedPackets_fillSelected hc rows numThreads [] (fun _ => rfl) hc, List.nil_append]

lemma blocksSelected_eq (hn : 0 < numThreads) (hc : 0 < cntrSiz) (fuel : Nat)
    {rows : List (Int × Int)} (hfuel : rows.length ≤ fuel) (cntr : List Counter) :
    blocksSelected numThreads cntrSiz fuel rows cntr =
      some (feedPackets cntrSiz cntr ((chunks cntrSiz (pick rows)).map qsortAscI4)) := by
  induction fuel generalizing rows cntr with
  | zero =>
    obtain rfl := List.eq_nil_of_length_eq_zero (Nat.le_zero.mp hfuel)
    simp [blocksSelected, pick, feedPackets]
  | succ fuel ih =>
    rw [blocksSelected]
    by_cases hrows : rows.length = 0
    · obtain rfl := List.eq_nil_of_length_eq_zero hrows
      simp [pick, feedPackets]
    · have hlt := length_fillSelected_lt cntrSiz [] hn hrows
      rw [if_neg hrows]
      dsimp only
      rw [ih (by omega), processPackets_eq, feedPackets, feedPackets, ← List.foldl_append,
        ← List.map_append, usedPackets_fillSelected hc rows numThreads [] (fun _ => rfl) hc,
        List.nil_append]
      rfl

/-- The branch of `approx_frequent` with a selector uses no index out of range, processes the
packets that the other branch makes of the selected elements, and leaves the same counters. -/
theorem approxFrequent_selected_packets (hn : 0 < numThreads) (hc : 0 < cntrSiz) (x cfld : List Int)
    {buffers : List (List Int)} (halloc : Allocated numThreads cntrSiz buffers) :
    ∃ packets,
      packetsSelected numThreads cntrSiz x.length (selectorRows x cfld) buffers = some packets ∧
      packetsAll numThreads cntrSiz (selected x (some cfld)) (selected x (some cfld)).length 0 =
        some packets ∧
      blocksSelected numThreads cntrSiz x.length (selectorRows x cfld) [] =
        some (feedPackets cntrSiz [] packets) ∧
      blocksAll numThreads cntrSiz (selected x (some cfld)) (selected x (some cfld)).length 0 [] =
        some (feedPackets cntrSiz [] packets) := by
  have hrows : (selectorRows x cfld).length ≤ x.length := by simp [selectorRows]
  have hall := packetsAll_eq hn hc (selected x (some cfld)) (selected x (some cfld)).length 0 (by omega)
  rw [List.drop_zero] at hall
  refine ⟨_, packetsSelected_eq hn hc x.length hrows halloc, hall, blocksSelected_eq hn hc _ hrows [], ?_⟩
  rw [blocksAll_eq, hall]
  rfl

end Packets

/-- Two packets of two elements; three of five elements are selected. -/
theorem approxFrequent_selected_packets_three :
    Allocated 2 2 [[0, 0], [0, 0]] ∧ ∃ packets,
      packetsSelected 2 2 5 (selectorRows [9, 8, 7, 6, 5] [1, 0, 1, 1, 0]) [[0, 0], [0, 0]] =
        some packets ∧
      packetsAll 2 2 [9, 7, 6] 3 0 = some packets := by
  have halloc : Allocated 2 2 [[0, 0], [0, 0]] := ⟨rfl, by decide⟩
  obtain ⟨packets, h1, h2, -⟩ :=
    approxFrequent_selected_packets two_pos two_pos [9, 8, 7, 6, 5] [1, 0, 1, 1, 0] halloc
  exact ⟨halloc, packets, h1, h2⟩

end Datacl
