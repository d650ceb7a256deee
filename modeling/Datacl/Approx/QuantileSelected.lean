import Datacl.Approx.QuantileBlocks
import Datacl.Approx.Selected

/-!
# Packets of `approx_quantile` under a selector

At the end of the input the branch with a selector looks for an incomplete packet at the position
`tid`, which is past the end of `inputPacketsUsedSiz` when the last packet of a block has just been
filled.
-/

namespace Datacl

open Chunks

/-! ### The packets of both branches -/

/-- The full packets of all blocks and the incomplete last packet when every element is processed;
`none` if the loop does not end. -/
def quantilePacketsAll (numThreads k : Nat) (x : List Int) :
    Nat → Nat → List Int → Option (List (List Int) × List Int)
  | 0, currentLoc, lastPacket => if currentLoc < x.length then none else some ([], lastPacket)
  | fuel + 1, currentLoc, lastPacket =>
    if currentLoc < x.length then
      let packets := fillAll numThreads k x currentLoc
      let lastPacket' := if (incompletePacket k packets).length = 0 then lastPacket
        else incompletePacket k packets
      let full := packets.filter (fun p => decide (p.length = k))
      (quantilePacketsAll numThreads k x fuel
        (currentLoc + (full.map List.length).sum + lastPacket'.length) lastPacket').map
          fun r => (full ++ r.1, r.2)
    else some ([], lastPacket)

/-- At the end of the input an incomplete packet at `tid` becomes the last packet. The loop around
this test does not use its variable. `none` if `tid` is out of range. -/
def moveLast (k : Nat) (s : FillState) (lastPacket : List Int) : Option (FillState × List Int) :=
  match s.usedSiz[s.tid]? with
  | none => none
  | some used =>
    if used ≠ 0 ∧ used ≠ k then
      some ({ s with usedSiz := s.usedSiz.set s.tid 0 }, (s.packets.getD s.tid []).take used)
    else some (s, lastPacket)

/-- Step (1): only full packets are sorted. -/
def sortFullPackets (k : Nat) (s : FillState) : List (List Int) :=
  List.zipWith (fun p n => if n = k then qsortAscI4 (p.take n) ++ p.drop n else p)
    s.packets s.usedSiz

/-- The full packets of all blocks and the incomplete last packet under a selector; `none` if the
loop does not end or an index is out of range. -/
def quantilePacketsSelected (numThreads k : Nat) :
    Nat → List (Int × Int) → List (List Int) → List Int → Option (List (List Int) × List Int)
  | 0, rows, _, lastPacket => if rows.length = 0 then some ([], lastPacket) else none
  | fuel + 1, rows, packets, lastPacket =>
    if rows.length = 0 then some ([], lastPacket)
    else
      match fillIndexed numThreads k rows ⟨packets, List.replicate numThreads 0, 0⟩ with
      | none => none
      | some (s, rest) =>
        match if rest.length = 0 then moveLast k s lastPacket else some (s, lastPacket) with
        | none => none
        | some (s, lastPacket) =>
          (quantilePacketsSelected numThreads k fuel rest (sortFullPackets k s) lastPacket).map
            fun r => (s.used.filter (fun p => decide (p.length = k)) ++ r.1, r.2)

section

variable {numThreads k : Nat}

/-! ### All elements -/

lemma addPackets_fullPackets (s : Sketch) (ps : List (List Int)) :
    addPackets k s (fullPackets k ps) = addPackets k s ps := by
  induction ps generalizing s with
  | nil => rfl
  | cons p ps ih =>
    by_cases hp : p.length = k
    · have hfull : fullPackets k (p :: ps) = p :: fullPackets k ps := by simp [fullPackets, hp]
      rw [hfull, addPackets, addPackets, if_pos hp, if_pos hp]
      congr 1
      funext s'
      exact ih s'
    · have hfull : fullPackets k (p :: ps) = fullPackets k ps := by simp [fullPackets, hp]
      rw [hfull, addPackets, if_neg hp]
      exact ih s

/-- The packets are what the main loop adds to the sketch. -/
lemma quantileBlocks_eq (x : List Int) (fuel currentLoc : Nat) (s : Sketch) (lastPacket : List Int) :
    quantileBlocks numThreads k x fuel currentLoc s lastPacket =
      (quantilePacketsAll numThreads k x fuel currentLoc lastPacket).bind fun r =>
        (addPackets k s r.1).map fun s' => (s', r.2) := by
  induction fuel generalizing currentLoc s lastPacket with
  | zero =>
    rw [quantileBlocks, quantilePacketsAll]
    split_ifs with hloc
    · rfl
    · rfl
  | succ fuel ih =>
    rw [quantileBlocks, quantilePacketsAll]
    split_ifs with hloc
    · simp only [ih, Option.bind_eq_bind, Option.bind_map]
      generalize quantilePacketsAll numThreads k x fuel _ _ = Q
      cases Q with
      | none => cases addPackets k s (fillAll numThreads k x currentLoc) <;> rfl
      | some r =>
        have hfull := addPackets_fullPackets (k := k) s (fillAll numThreads k x currentLoc)
        rw [fullPackets] at hfull
        simp only [Option.bind_some, Function.comp, addPackets_append, hfull, Option.map_bind]
    · rfl

lemma quantilePacketsAll_of_le {x : List Int} {currentLoc : Nat} (h : x.length ≤ currentLoc)
    (fuel : Nat) (lastPacket : List Int) :
    quantilePacketsAll numThreads k x fuel currentLoc lastPacket = some ([], lastPacket) := by
  cases fuel with
  | zero => rw [quantilePacketsAll, if_neg (by omega)]
  | succ fuel => rw [quantilePacketsAll, if_neg (by omega)]

/-- The packets cover the elements from `currentLoc` on. -/
lemma quantilePacketsAll_cut (hn : 0 < numThreads) (hk : 0 < k) (x : List Int) (fuel currentLoc : Nat)
    (hfuel : x.length ≤ currentLoc + fuel) :
    ∃ full last, quantilePacketsAll numThreads k x fuel currentLoc [] = some (full, last) ∧
      Cut k (x.drop currentLoc) full last := by
  have hdone : ∀ {loc : Nat}, x.length ≤ loc → Cut k (x.drop loc) [] [] := by
    intro loc hloc
    rw [List.drop_eq_nil_of_le hloc]
    exact ⟨fun p hp => absurd hp List.not_mem_nil, hk, rfl⟩
  induction fuel generalizing currentLoc with
  | zero =>
    rw [quantilePacketsAll, if_neg (by omega)]
    exact ⟨[], [], rfl, hdone (by omega)⟩
  | succ fuel ih =>
    rw [quantilePacketsAll]
    by_cases hloc : currentLoc < x.length
    · rw [if_pos hloc]
      obtain ⟨hcover, hshort, hend⟩ := packets_cover hk numThreads x currentLoc
      have hsum : ((fullPackets k (fillAll numThreads k x currentLoc)).map List.length).sum =
          (fullPackets k (fillAll numThreads k x currentLoc)).flatten.length :=
        List.length_flatten.symm
      rw [fullPackets] at hsum
      dsimp only
      rw [hsum, ← fullPackets]
      have hpos : 0 < numThreads * k := Nat.mul_pos hn hk
      have hlen := congrArg List.length hcover
      rw [List.length_append, List.length_take, List.length_drop] at hlen
      by_cases hinc : incompletePacket k (fillAll numThreads k x currentLoc) = []
      · rw [hinc, List.append_nil] at hcover
        rw [hinc, List.length_nil, Nat.add_zero] at hlen
        rw [hinc, List.length_nil, if_pos rfl, List.length_nil, Nat.add_zero, hlen]
        obtain ⟨full, last, hrest, hcut⟩ := ih (currentLoc + min (numThreads * k) (x.length - currentLoc))
          (by omega)
        refine ⟨_, last, congrArg (Option.map _) hrest, ?_⟩
        have happ := hcut.append fun p (hp : p ∈ fullPackets k (fillAll numThreads k x currentLoc)) =>
          length_of_mem_fullPackets hp
        rw [hcover, drop_add_min, List.take_append_drop] at happ
        exact happ
      · have hover : x.length ≤ currentLoc + numThreads * k := hend hinc
        have hlast : (incompletePacket k (fillAll numThreads k x currentLoc)).length ≠ 0 := by
          simpa using hinc
        rw [if_neg hlast, quantilePacketsAll_of_le (by omega)]
        refine ⟨_, _, rfl, ?_⟩
        rw [List.take_of_length_le (by rw [List.length_drop]; omega)] at hcover
        rw [List.append_nil]
        exact ⟨fun p hp => length_of_mem_fullPackets hp, hshort, hcover⟩
    · rw [if_neg hloc]
      exact ⟨[], [], rfl, hdone (by omega)⟩

/-! ### Selected elements -/

/-- The input ends with a selected element that fills the last packet of a block. -/
def EndsWithBlock (numThreads k : Nat) (rows : List (Int × Int)) : Prop :=
  numThreads * k ∣ (pick rows).length ∧ ∃ r, rows.getLast? = some r ∧ r.2 ≠ 0

lemma pick_ne_nil {rows : List (Int × Int)} {r : Int × Int} (hr : r ∈ rows) (hc : r.2 ≠ 0) :
    pick rows ≠ [] :=
  List.ne_nil_of_mem (List.mem_map_of_mem (List.mem_filter.mpr ⟨hr, decide_eq_true hc⟩))

/-- A block that is filled before the input ends does not matter. -/
lemma endsWithBlock_iff {rows pre left : List (Int × Int)} {r : Int × Int}
    (hsplit : rows = pre ++ r :: left) (hleft : left ≠ [])
    (hlen : (pick rows).length = numThreads * k + (pick left).length) :
    EndsWithBlock numThreads k rows ↔ EndsWithBlock numThreads k left := by
  have hlast : rows.getLast? = left.getLast? := by
    rw [hsplit, List.append_cons, List.getLast?_append]
    cases hg : left.getLast? with
    | none => exact absurd (List.getLast?_eq_none_iff.mp hg) hleft
    | some q => rfl
  rw [EndsWithBlock, EndsWithBlock, hlast, hlen, Nat.dvd_add_right (Nat.dvd_refl _)]

lemma quantilePacketsSelected_nil (fuel : Nat) (packets : List (List Int)) (last : List Int) :
    quantilePacketsSelected numThreads k fuel [] packets last = some ([], last) := by
  cases fuel with
  | zero => rfl
  | succ fuel => rfl

/-- The used part of full packets. -/
lemma used_full {packets : List (List Int)} (h : Allocated numThreads k packets) :
    (⟨packets, List.replicate numThreads k, numThreads⟩ : FillState).used = packets := by
  rw [FillState.used, ← h.number]
  have hsize := h.size
  clear h
  induction packets with
  | nil => rfl
  | cons p packets ih =>
    rw [List.forall_mem_cons] at hsize
    rw [List.length_cons, List.replicate_succ, List.zipWith_cons_cons, ih hsize.2,
      List.take_of_length_le hsize.1.le]

/-- The partial packet, if there is one, becomes the last packet. -/
lemma moveLast_filling {done : List (List Int)} (rest : List (List Int)) (cur : List Int) {n : Nat}
    (hn : n < k) (hdone : ∀ p ∈ done, p.length = k) (hk : 0 < k) :
    ∃ s, moveLast k (filling k done cur rest n) [] = some (s, cur.take n) ∧
      s.used.filter (fun p => decide (p.length = k)) = done := by
  have hused : (filling k done cur rest n).usedSiz[done.length]? = some n := by simp [filling]
  have hfilter : ∀ m, (done ++ List.take 0 cur :: List.replicate m []).filter
      (fun p => decide (p.length = k)) = done := by
    intro m
    have hnone : (List.take 0 cur :: List.replicate m []).filter
        (fun p => decide (p.length = k)) = [] := by
      simp [hk.ne]
    rw [List.filter_append, hnone, List.append_nil, List.filter_eq_self]
    simpa using hdone
  have htid : (filling k done cur rest n).tid = done.length := rfl
  rw [moveLast, htid, hused]
  dsimp only
  by_cases h0 : n = 0
  · subst h0
    rw [if_neg (by simp)]
    refine ⟨_, rfl, ?_⟩
    rw [used_filling rest hdone]
    exact hfilter rest.length
  · rw [if_pos ⟨h0, hn.ne⟩]
    have hpacket : (filling k done cur rest n).packets.getD done.length [] = cur := by simp [filling]
    have hstate : (⟨(filling k done cur rest n).packets,
        (filling k done cur rest n).usedSiz.set done.length 0, done.length⟩ : FillState) =
          filling k done cur rest 0 := by
      simp [filling]
    rw [hpacket, hstate]
    refine ⟨_, rfl, ?_⟩
    rw [used_filling rest hdone]
    exact hfilter rest.length

lemma allocated_sortFullPackets {packets : List (List Int)} (h : Allocated numThreads k packets) :
    Allocated numThreads k
      (sortFullPackets k ⟨packets, List.replicate numThreads k, numThreads⟩) := by
  constructor
  · rw [sortFullPackets, List.length_zipWith, List.length_replicate, h.number, Nat.min_self]
  · intro p hp
    obtain ⟨i, hi, rfl⟩ := List.getElem_of_mem hp
    rw [sortFullPackets, List.length_zipWith] at hi
    simp only [sortFullPackets, List.getElem_zipWith, List.getElem_replicate, if_true]
    rw [List.length_append, (qsortAscI4_perm _).length_eq, ← List.length_append,
      List.take_append_drop]
    exact h.size _ (List.getElem_mem _)

/-- The packets under a selector: none if the input ends with a block, and else those of the
selected elements. -/
lemma quantilePacketsSelected_cut (hn : 0 < numThreads) (hk : 0 < k) (fuel : Nat)
    {rows : List (Int × Int)} (hfuel : rows.length ≤ fuel) {packets : List (List Int)}
    (halloc : Allocated numThreads k packets) :
    EndsWithBlock numThreads k rows ∧ quantilePacketsSelected numThreads k fuel rows packets [] = none ∨
      ¬ EndsWithBlock numThreads k rows ∧ ∃ full last,
        quantilePacketsSelected numThreads k fuel rows packets [] = some (full, last) ∧
          Cut k (pick rows) full last := by
  have hnil : ¬ EndsWithBlock numThreads k [] := by
    rintro ⟨-, r, hr, -⟩
    cases hr
  have hcut : Cut k (pick []) [] [] := ⟨fun p hp => absurd hp List.not_mem_nil, hk, rfl⟩
  induction fuel generalizing rows packets with
  | zero =>
    obtain rfl := List.eq_nil_of_length_eq_zero (Nat.le_zero.mp hfuel)
    exact .inr ⟨hnil, [], [], rfl, hcut⟩
  | succ fuel ih =>
    by_cases hrows : rows.length = 0
    · obtain rfl := List.eq_nil_of_length_eq_zero hrows
      exact .inr ⟨hnil, [], [], rfl, hcut⟩
    rw [quantilePacketsSelected, if_neg hrows]
    obtain ⟨s, hs, hused, hend⟩ := fillIndexed_eq hn hk rows halloc
    have hcover := flatten_fillSelected k rows numThreads [] (fun _ => rfl)
    have hlt := length_fillSelected_lt k [] hn hrows
    rw [← hused, List.nil_append] at hcover
    rw [hs]
    dsimp only
    generalize (fillSelected k rows numThreads []).2 = left at hend hcover hlt
    cases hend with
    | full alloc hc hsplit =>
      rename_i packets' pre v c
      rw [used_full alloc] at hcover
      have hlen := congrArg List.length hcover
      rw [List.length_append, length_flatten_eq alloc.size, alloc.number] at hlen
      by_cases hleft : left = []
      · subst hleft
        refine .inl ⟨⟨⟨1, ?_⟩, (v, c), ?_, hc⟩, ?_⟩
        · rw [← hlen]
          simp [pick]
        · rw [hsplit, List.getLast?_append]
          rfl
        · rw [List.length_nil, if_pos rfl, moveLast]
          simp
      · have hnonzero : left.length ≠ 0 := by simpa using hleft
        rw [if_neg hnonzero, endsWithBlock_iff hsplit hleft hlen.symm]
        dsimp only
        rw [used_full alloc, List.filter_eq_self.mpr (by simpa using alloc.size)]
        rcases ih (show left.length ≤ fuel by omega) (allocated_sortFullPackets alloc) with
          ⟨hbad, hnone⟩ | ⟨hgood, full, last, hsome, hrest⟩
        · rw [hnone]
          exact .inl ⟨hbad, rfl⟩
        · rw [hsome]
          refine .inr ⟨hgood, _, last, rfl, ?_⟩
          rw [← hcover]
          exact hrest.append alloc.size
    | partway hshort alloc =>
      rename_i done rest cur n
      have hdone : ∀ p ∈ done, p.length = k := fun p hp =>
        alloc.size p (List.mem_append_left _ hp)
      have hcur : cur.length = k := alloc.size cur (by simp)
      have hnumber := alloc.number
      rw [List.length_append, List.length_cons] at hnumber
      obtain ⟨s', hmove, hfull⟩ := moveLast_filling rest cur hshort hdone hk
      have hcut' : Cut k (pick rows) done (cur.take n) := by
        refine ⟨hdone, by rw [List.length_take]; omega, ?_⟩
        rw [← hcover, used_filling rest hdone]
        simp [pick]
      rw [List.length_nil, if_pos rfl, hmove]
      dsimp only
      rw [quantilePacketsSelected_nil, hfull, Option.map_some, List.append_nil]
      refine .inr ⟨?_, done, cur.take n, rfl, hcut'⟩
      rintro ⟨hdvd, r, hlast, hr⟩
      have hpos := List.length_pos_iff.mpr (pick_ne_nil (List.mem_of_getLast? hlast) hr)
      have hle := Nat.le_of_dvd hpos hdvd
      have hlen := congrArg List.length hcut'.cover
      rw [List.length_append, length_flatten_eq hdone, List.length_take] at hlen
      have hmul : (done.length + 1) * k ≤ numThreads * k := Nat.mul_le_mul_right k (by omega)
      rw [Nat.succ_mul] at hmul
      omega

/-- The packets of `approx_quantile` with a selector: it takes the branch for all elements if every
element is selected. -/
def quantilePackets (numThreads k : Nat) (x cfld : List Int) (buffers : List (List Int)) :
    Option (List (List Int) × List Int) :=
  if effSiz x (some cfld) = x.length then quantilePacketsAll numThreads k x x.length 0 []
  else quantilePacketsSelected numThreads k x.length (selectorRows x cfld) buffers []

/-- With a selector `approx_quantile` assembles the packets that it assembles from the selected
elements alone, each of which is in one of them, and uses no index out of range. -/
def QuantileSelectedOk (numThreads k : Nat) (x cfld : List Int) (buffers : List (List Int)) : Prop :=
  ∃ full last,
    quantilePackets numThreads k x cfld buffers = some (full, last) ∧
    quantilePacketsAll numThreads k (selected x (some cfld)) (selected x (some cfld)).length 0 [] =
      some (full, last) ∧
    full.flatten ++ last = selected x (some cfld)

lemma quantilePackets_cut (hn : 0 < numThreads) (hk : 0 < k) (x cfld : List Int)
    {buffers : List (List Int)} (halloc : Allocated numThreads k buffers)
    (h : effSiz x (some cfld) ≠ x.length → ¬ EndsWithBlock numThreads k (selectorRows x cfld)) :
    ∃ full last, quantilePackets numThreads k x cfld buffers = some (full, last) ∧
      Cut k (selected x (some cfld)) full last := by
  rw [quantilePackets]
  split_ifs with hall
  · rw [selected_eq_of_effSiz hall]
    exact quantilePacketsAll_cut hn hk x x.length 0 (by omega)
  · have hrows : (selectorRows x cfld).length ≤ x.length := by simp [selectorRows]
    rcases quantilePacketsSelected_cut hn hk x.length hrows halloc with ⟨hbad, -⟩ | ⟨-, hgood⟩
    · exact absurd hbad (h hall)
    · exact hgood

/-- This holds unless some element is not selected and the last element is selected and fills the
last packet of a block. -/
theorem quantileSelectedOk_iff (hn : 0 < numThreads) (hk : 0 < k) (x cfld : List Int)
    {buffers : List (List Int)} (halloc : Allocated numThreads k buffers) :
    QuantileSelectedOk numThreads k x cfld buffers ↔
      (effSiz x (some cfld) ≠ x.length → ¬ EndsWithBlock numThreads k (selectorRows x cfld)) := by
  constructor
  · rintro ⟨full, last, hsome, -⟩ hne hbad
    have hrows : (selectorRows x cfld).length ≤ x.length := by simp [selectorRows]
    rw [quantilePackets, if_neg hne] at hsome
    rcases quantilePacketsSelected_cut hn hk x.length hrows halloc with ⟨-, hnone⟩ | ⟨hgood, -⟩
    · rw [hnone] at hsome
      cases hsome
    · exact hgood hbad
  · intro h
    obtain ⟨full, last, hsome, hcut⟩ := quantilePackets_cut hn hk x cfld halloc h
    obtain ⟨full', last', hall, hcut'⟩ :=
      quantilePacketsAll_cut hn hk (selected x (some cfld)) (selected x (some cfld)).length 0 (by omega)
    obtain ⟨rfl, rfl⟩ := hcut.unique hcut'
    exact ⟨full, last, hsome, hall, hcut.cover⟩

end

/-- Three of four elements are selected, in two packets of two elements. -/
theorem quantileSelectedOk_three :
    Allocated 2 2 [[0, 0], [0, 0]] ∧
      QuantileSelectedOk 2 2 [9, 8, 7, 6] [1, 0, 1, 1] [[0, 0], [0, 0]] := by
  have halloc : Allocated 2 2 [[0, 0], [0, 0]] := ⟨rfl, by decide⟩
  refine ⟨halloc, (quantileSelectedOk_iff two_pos two_pos _ _ halloc).mpr ?_⟩
  rintro - ⟨hdvd, -⟩
  exact absurd hdvd (by decide)

/-- One packet of two elements, which the last element fills. -/
theorem quantileSelected_out_of_range : ¬ QuantileSelectedOk 1 2 [9, 8, 7] [1, 0, 1] [[0, 0]] := by
  rintro ⟨full, last, hsome, -⟩
  have hnone : quantilePackets 1 2 [9, 8, 7] [1, 0, 1] [[0, 0]] = none := by decide
  exact absurd (hsome.symm.trans hnone) (by simp)

end Datacl
