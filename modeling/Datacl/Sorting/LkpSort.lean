import Datacl.Lib.CInt
import Datacl.Lib.CountingSort

/-!
# Sorting by a lookup table: `lkp_sort.c`

The counts of the second table give every value of the first its slice of the output; a row moves to
the next free place of its value. The index that runs over the counts is an `int`.
-/

namespace Datacl

open CountingSort

/-! ### The command -/

/-- The loop that fills `offsets` from `i` on, with the offset before and the counts from there on. An
index that has become negative is outside of `offsets`. -/
def fillOffsets (i prev : Int) : List Int → Option (List Int)
  | [] => none
  | [_] => if i < 0 then none else some [prev]
  | c :: c' :: cnt =>
    if i < 0 then none
    else
      (fillOffsets (CInt.wrap 32 (i + 1)) (CInt.wrap 64 (prev + c)) (c' :: cnt)).map (prev :: ·)

/-- `offsets` and the output files. There is no `idx_f1` unless it was asked for. -/
structure LkpState where
  offsets : List Int
  srtF1 : List Int
  idxF1 : Option (List Nat)

/-- One row of the main loop. `offset` is an `int`. -/
def lkpRow (nR1 nR2 : Nat) (i : Nat) (val : Int) (s : LkpState) : Option LkpState :=
  if val < 0 ∨ nR2 ≤ val then none
  else
    let offset := CInt.wrap 32 (s.offsets.getD val.toNat 0)
    if offset < 0 ∨ nR1 ≤ offset then none
    else some {
      offsets := s.offsets.set val.toNat (offset + 1)
      srtF1 := s.srtF1.set offset.toNat val
      idxF1 := s.idxF1.map (·.set offset.toNat i) }

/-- The main loop, from row `i` on. -/
def lkpLoop (nR1 nR2 : Nat) : Nat → List Int → LkpState → Option LkpState
  | _, [], s => some s
  | i, val :: rest, s => (lkpRow nR1 nR2 i val s).bind (lkpLoop nR1 nR2 (i + 1) rest)

/-- `lkp_sort` on the column `f1` and the counts: `srt_f1` and `idx_f1`. -/
def lkpSort (f1 cnt : List Int) (mkIdx : Bool) : Option (List Int × Option (List Nat)) :=
  let nR1 := f1.length
  (fillOffsets 1 0 cnt).bind fun offsets =>
    (lkpLoop nR1 cnt.length 0 f1 {
      offsets
      srtF1 := List.replicate nR1 0
      idxF1 := if mkIdx then some (List.replicate nR1 0) else none }).map fun s => (s.srtF1, s.idxF1)

/-- A stable counting sort, without an error. -/
def LkpSortRight (f1 : List Int) (mkIdx : Bool) (r : Option (List Int × Option (List Nat))) : Prop :=
  ∃ srt idx, r = some (srt, if mkIdx then some idx else none) ∧ StableSort f1 srt idx

/-! ### Offsets -/

section

variable {f1 done rest cnt : List Int} {val prev i : Int} {nR2 k : Nat} {mkIdx : Bool} {s : LkpState}
  {idx : List Nat}

lemma fillOffsets_eq_none (hi : 0 ≤ i) (hlt : i < 2 ^ 31) (hne : cnt ≠ [])
    (hlen : 2 ^ 31 + 1 ≤ i + cnt.length) : fillOffsets i prev cnt = none := by
  induction cnt generalizing i prev with
  | nil => exact absurd rfl hne
  | cons c cnt ih =>
    cases cnt with
    | nil =>
      rw [List.length_singleton] at hlen
      omega
    | cons c' cnt =>
      rw [fillOffsets, if_neg (by omega)]
      rw [List.length_cons] at hlen
      by_cases hlast : i + 1 < 2 ^ 31
      · have hwrap : CInt.wrap 32 (i + 1) = i + 1 := CInt.wrap_of_lt (by omega) hlast
        rw [hwrap, ih (by omega) hlast (by simp) (by push_cast at hlen ⊢; omega)]
        rfl
      · -- the index overflows, and the next round is outside
        have hneg : CInt.wrap 32 (i + 1) < 0 := by
          rw [CInt.wrap_of_ge (w := 31) (by omega) (by omega)]
          omega
        generalize CInt.wrap 32 (i + 1) = j at hneg
        cases cnt with
        | nil =>
          rw [fillOffsets, if_pos hneg]
          rfl
        | cons c'' cnt =>
          rw [fillOffsets, if_pos hneg]
          rfl

/-- The offsets are the totals whose differences are the counts. -/
lemma fillOffsets_eq_some (total : Nat → Int) (h0 : ∀ v, 0 ≤ total v) (h31 : ∀ v, total v < 2 ^ 31)
    (hne : cnt ≠ []) (hlt : k + cnt.length < 2 ^ 31)
    (hcnt : ∀ v : Nat, v < cnt.length → cnt[v]? = some (total (k + v + 1) - total (k + v))) :
    ∃ offsets, fillOffsets (k + 1) (total k) cnt = some offsets ∧
      ∀ v : Nat, v < cnt.length → offsets[v]? = some (total (k + v)) := by
  induction cnt generalizing k with
  | nil => exact absurd rfl hne
  | cons c cnt ih =>
    cases cnt with
    | nil =>
      rw [fillOffsets, if_neg (by omega)]
      refine ⟨[total k], rfl, ?_⟩
      intro v hv
      rw [List.length_singleton] at hv
      obtain rfl : v = 0 := by omega
      rfl
    | cons c' cnt =>
      have hc : c = total (k + 1) - total k := by simpa using hcnt 0 (by simp)
      have hsum : CInt.wrap 64 (total k + c) = total (k + 1) := by
        have := h0 (k + 1)
        have := h31 (k + 1)
        rw [hc, show total k + (total (k + 1) - total k) = total (k + 1) by omega]
        exact CInt.wrap_of_lt (by omega) (by omega)
      have hi : CInt.wrap 32 ((k : Int) + 1 + 1) = (k + 1 : Nat) + 1 := by
        simp only [List.length_cons] at hlt
        exact CInt.wrap_of_lt (by omega) (by omega)
      have hrest : ∀ v : Nat, v < (c' :: cnt).length →
          (c' :: cnt)[v]? = some (total (k + 1 + v + 1) - total (k + 1 + v)) := by
        intro v hv
        have hv' := hcnt (v + 1) (by simpa using hv)
        rw [List.getElem?_cons_succ] at hv'
        rw [hv', Nat.add_assoc k 1 v, Nat.add_comm 1 v]
      obtain ⟨offsets, hfill, hget⟩ := ih (by simp) (by simp only [List.length_cons] at hlt ⊢; omega) hrest
      rw [fillOffsets, if_neg (by omega), hsum, hi, hfill]
      refine ⟨total k :: offsets, rfl, ?_⟩
      intro v hv
      cases v with
      | zero => rfl
      | succ v =>
        rw [List.getElem?_cons_succ, hget v (by simpa using hv), Nat.add_assoc k 1 v, Nat.add_comm 1 v]

lemma countP_lt_succ (xs : List Int) (v : Nat) :
    xs.countP (· < ((v + 1 : Nat) : Int)) = xs.countP (· < (v : Int)) + xs.count (v : Int) := by
  rw [← countP_le_eq]
  congr 1
  funext x
  rw [decide_eq_decide, Int.natCast_succ]
  exact Int.lt_add_one_iff

/-! ### Rows -/

/-- After the rows `done`: the offsets are the next places, and these rows stand at theirs. -/
structure LkpInv (f1 done : List Int) (nR2 : Nat) (mkIdx : Bool) (s : LkpState) (idx : List Nat) :
    Prop where
  offsets : ∀ v : Nat, v < nR2 → s.offsets[v]? = some (place f1 done (v : Int) : Int)
  length_srt : s.srtF1.length = f1.length
  length_idx : idx.length = f1.length
  idxF1 : s.idxF1 = if mkIdx then some idx else none
  srt : ∀ pre v post, done = pre ++ v :: post → s.srtF1[place f1 pre v]? = some v
  idx : ∀ pre v post, done = pre ++ v :: post → idx[place f1 pre v]? = some pre.length

/-- One row moves to its place. -/
lemma LkpInv.step (h : LkpInv f1 done nR2 mkIdx s idx) (hf1 : f1 = done ++ val :: rest)
    (hlen : f1.length < 2 ^ 31) (h0 : 0 ≤ val) (hval : val < nR2) :
    ∃ s' idx', lkpRow f1.length nR2 done.length val s = some s' ∧
      LkpInv f1 (done ++ [val]) nR2 mkIdx s' idx' := by
  obtain ⟨n, rfl⟩ := Int.eq_ofNat_of_zero_le h0
  have hn : n < nR2 := by omega
  have hplace := place_lt hf1
  have hoff : s.offsets.getD n 0 = place f1 done (n : Int) := by
    rw [List.getD_eq_getElem?_getD, h.offsets n hn, Option.getD_some]
  have hwrap : CInt.wrap 32 (place f1 done (n : Int) : Int) = place f1 done (n : Int) :=
    CInt.wrap_of_lt (by omega) (by omega)
  let s' : LkpState := {
    offsets := s.offsets.set n (place f1 done (n : Int) + 1)
    srtF1 := s.srtF1.set (place f1 done n) n
    idxF1 := s.idxF1.map (·.set (place f1 done n) done.length) }
  refine ⟨s', idx.set (place f1 done n) done.length, ?_, ?_⟩
  · rw [lkpRow, if_neg (by omega)]
    dsimp only
    rw [Int.toNat_natCast, hoff, hwrap, if_neg (by omega), Int.toNat_natCast]
  · refine ⟨?_, ?_, ?_, ?_, ?_, ?_⟩
    · intro v hv
      have hoffsets := h.offsets v hv
      by_cases hvn : n = v
      · subst hvn
        rw [List.getElem?_set_self (List.getElem?_eq_some_iff.mp hoffsets).1]
        simp [place, List.count_append, add_assoc]
      · rw [List.getElem?_set_ne hvn, hoffsets]
        simp [place, List.count_append, hvn]
    · rw [List.length_set, h.length_srt]
    · rw [List.length_set, h.length_idx]
    · show s.idxF1.map _ = _
      rw [h.idxF1]
      cases mkIdx <;> rfl
    · exact getElem?_set_place (g := fun _ w => w) hf1 h.length_srt h.srt
    · exact getElem?_set_place (g := fun pre _ => pre.length) hf1 h.length_idx h.idx

/-- The main loop. -/
lemma LkpInv.run (h : LkpInv f1 done nR2 mkIdx s idx) (hf1 : f1 = done ++ rest)
    (hlen : f1.length < 2 ^ 31) (hval : ∀ v ∈ rest, 0 ≤ v ∧ v < nR2) :
    ∃ s' idx', lkpLoop f1.length nR2 done.length rest s = some s' ∧
      LkpInv f1 f1 nR2 mkIdx s' idx' := by
  induction rest generalizing done s idx with
  | nil =>
    rw [List.append_nil] at hf1
    exact ⟨s, idx, rfl, hf1 ▸ h⟩
  | cons val rest ih =>
    rw [List.forall_mem_cons] at hval
    obtain ⟨s', idx', hrow, h'⟩ := h.step hf1 hlen hval.1.1 hval.1.2
    obtain ⟨s'', idx'', hloop, h''⟩ := ih h' (by rw [hf1, List.append_assoc]; rfl) hval.2
    rw [List.length_append, List.length_singleton] at hloop
    refine ⟨s'', idx'', ?_, h''⟩
    rw [lkpLoop, hrow, Option.bind_some, hloop]

lemma LkpInv.arranged (h : LkpInv f1 f1 nR2 mkIdx s idx) : Arranged f1 s.srtF1 idx :=
  ⟨h.length_srt, h.length_idx, h.srt, h.idx⟩

end

lemma lkpSort_eq_none {f1 cnt : List Int} {mkIdx : Bool} (h : ¬ (0 < cnt.length ∧ cnt.length < 2 ^ 31)) :
    lkpSort f1 cnt mkIdx = none := by
  have hnone : fillOffsets 1 0 cnt = none := by
    cases cnt with
    | nil => rfl
    | cons c cnt =>
      rw [List.length_cons] at h
      exact fillOffsets_eq_none (by omega) (by omega) (by simp) (by rw [List.length_cons]; omega)
  rw [lkpSort, hnone]
  rfl

/-- The lookup sort is a stable counting sort exactly if the lookup table has rows, and few enough that
an `int` can count them. -/
theorem lkpSort_right_iff (f1 cnt : List Int) (mkIdx : Bool) (hlen : f1.length < 2 ^ 31)
    (hval : ∀ v ∈ f1, 0 ≤ v ∧ v < cnt.length)
    (hcnt : ∀ v : Nat, v < cnt.length → cnt[v]? = some (f1.count (v : Int) : Int)) :
    LkpSortRight f1 mkIdx (lkpSort f1 cnt mkIdx) ↔ 0 < cnt.length ∧ cnt.length < 2 ^ 31 := by
  constructor
  · rintro ⟨srt, idx, hrun, -⟩
    by_contra hbad
    rw [lkpSort_eq_none hbad] at hrun
    cases hrun
  · rintro ⟨hpos, hlt⟩
    have hne : cnt ≠ [] := List.length_pos_iff.mp hpos
    let total (v : Nat) : Int := f1.countP (· < (v : Int))
    have hdiff : ∀ v : Nat, v < cnt.length → cnt[v]? = some (total (0 + v + 1) - total (0 + v)) := by
      intro v hv
      have hsucc := countP_lt_succ f1 v
      rw [hcnt v hv, Nat.zero_add, Option.some_inj]
      show _ = ((f1.countP (· < ((v + 1 : Nat) : Int)) : Nat) : Int) - (f1.countP (· < (v : Int)) : Nat)
      omega
    have hbound : ∀ v, total v < 2 ^ 31 := by
      intro v
      have hle : f1.countP (· < (v : Int)) ≤ f1.length := List.countP_le_length
      exact Int.lt_of_le_of_lt (Int.ofNat_le.mpr hle) (by omega)
    obtain ⟨offsets, hfill, hget⟩ := fillOffsets_eq_some (k := 0) total
      (fun v => Int.natCast_nonneg _) hbound hne (by omega) hdiff
    have htotal : total 0 = 0 := by
      have hzero : f1.countP (· < ((0 : Nat) : Int)) = 0 := by
        rw [List.countP_eq_zero]
        intro v hv
        simpa using (hval v hv).1
      exact congrArg Nat.cast hzero
    rw [htotal] at hfill
    have hinv : LkpInv f1 [] cnt.length mkIdx
        { offsets, srtF1 := List.replicate f1.length 0,
          idxF1 := if mkIdx then some (List.replicate f1.length 0) else none }
        (List.replicate f1.length 0) := by
      refine ⟨?_, List.length_replicate, List.length_replicate, rfl, ?_, ?_⟩
      · intro v hv
        rw [hget v hv, Nat.zero_add]
        simp [total, place]
      · intro pre v post h
        simp at h
      · intro pre v post h
        simp at h
    obtain ⟨s, idx, hloop, hend⟩ := hinv.run (show f1 = [] ++ f1 from rfl) hlen hval
    refine ⟨s.srtF1, idx, ?_, hend.arranged.stableSort⟩
    have hfill' : fillOffsets 1 0 cnt = some offsets := hfill
    rw [List.length_nil] at hloop
    rw [lkpSort, hfill', Option.bind_some, hloop, Option.map_some, hend.idxF1]

theorem lkpSort_right_three : LkpSortRight [1, 0, 1] true (lkpSort [1, 0, 1] [1, 2] true) :=
  (lkpSort_right_iff [1, 0, 1] [1, 2] true (by decide) (by decide) (by decide)).mpr (by decide)

/-- A lookup table of `2 ^ 31` rows, all but the first with the count 0. -/
theorem not_lkpSort_right :
    ¬ ∀ (f1 cnt : List Int) (mkIdx : Bool), f1.length < 2 ^ 31 →
      (∀ v ∈ f1, 0 ≤ v ∧ v < cnt.length) →
      (∀ v : Nat, v < cnt.length → cnt[v]? = some (f1.count (v : Int) : Int)) →
      LkpSortRight f1 mkIdx (lkpSort f1 cnt mkIdx) := by
  intro h
  obtain ⟨n, hn⟩ : ∃ n, n + 1 = 2 ^ 31 := ⟨2 ^ 31 - 1, rfl⟩
  have hlen : (1 :: List.replicate n (0 : Int)).length = n + 1 := by
    rw [List.length_cons, List.length_replicate]
  have hcnt : ∀ v : Nat, v < (1 :: List.replicate n (0 : Int)).length →
      (1 :: List.replicate n (0 : Int))[v]? = some (([0] : List Int).count (v : Int) : Int) := by
    intro v hv
    cases v with
    | zero => rfl
    | succ v =>
      rw [hlen] at hv
      rw [List.getElem?_cons_succ, List.getElem?_replicate, if_pos (by omega), Option.some_inj,
        List.count_eq_zero_of_not_mem]
      · rfl
      · rw [List.mem_singleton]
        omega
  obtain ⟨srt, idx, hrun, -⟩ := h [0] (1 :: List.replicate n 0) true (by norm_num)
    (by rw [hlen]; simp) hcnt
  rw [lkpSort_eq_none (by rw [hlen]; omega)] at hrun
  cases hrun

end Datacl
