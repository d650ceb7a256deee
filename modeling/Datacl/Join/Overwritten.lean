import Datacl.Join.Agreement
import Mathlib.Data.BitVec

/-!
# Blocks that overwrite each other

`cnt`, `sum` and `exists` begin with 0, which a new file holds anyway; but each block writes its
zeroes at the beginning of the file, where the rows of other blocks are.
-/

namespace Datacl

/-- The operations without a null column that begin with 0. -/
def JoinOp.fromZero : JoinOp → Bool
  | .joinCnt | .joinSum | .joinExists => true
  | _ => false

/-- The initial zeroes of a block of `n` rows cover cell `i`. -/
def Overwrites (op : JoinOp) (w n i : Nat) : Prop :=
  match op with
  | .joinExists => i * (w / 8) < n
  | _ => i * w < 64 * n

section

variable {w : Nat} {J : JoinArgs w} {lb ub nT : Nat}

/-! ### Initial zeroes -/

lemma clearI1_eq {n i : Nat} {X : Nat → BitVec w} (hX : X i = 0 ∨ X i = 1) :
    (i * (w / 8) < n → clearI1 n X i = 0) ∧ (¬ i * (w / 8) < n → clearI1 n X i = X i) := by
  constructor
  · intro h
    have hshift : X i >>> (8 * (n - i * (w / 8))) = 0 := by
      have hpow : 1 < 2 ^ (8 * (n - i * (w / 8))) := Nat.one_lt_two_pow (by omega)
      have hone : (1 : BitVec w).toNat ≤ 1 := by
        exact Nat.mod_le 1 (2 ^ w)
      apply BitVec.eq_of_toNat_eq
      rw [BitVec.toNat_ushiftRight, Nat.shiftRight_eq_div_pow]
      rcases hX with hX | hX
      · rw [hX]
        simp
      · rw [hX, Nat.div_eq_of_lt (hone.trans_lt hpow)]
        rfl
    rw [clearI1, hshift]
    simp
  · intro h
    have hzero : n - i * (w / 8) = 0 := by omega
    rw [clearI1, hzero]
    simp

lemma setInit_fromZero (lb ub : Nat) {op : JoinOp} (hop : op.fromZero = true) {X : Nat → BitVec w} {i : Nat}
    (hX : op = .joinExists → X i = 0 ∨ X i = 1) :
    (Overwrites op w (ub - lb) i → setInit op lb ub X i = 0) ∧
      (¬ Overwrites op w (ub - lb) i → setInit op lb ub X i = X i) := by
  cases op with
  | joinExists => exact clearI1_eq (hX rfl)
  | joinCnt | joinSum => exact ⟨fun h => if_pos h, fun h => if_neg h⟩
  | joinReg | joinOr | joinAnd | joinMin | joinMax | joinMinidx | joinMaxidx => cases hop

lemma hasNn_of_fromZero {op : JoinOp} (hop : op.fromZero = true) : op.hasNn = false := by
  cases op <;> first | rfl | cases hop

/-! ### Sums of the source rows of a link -/

lemma foldl_add_eq (js : List Nat) (v : Int) (f : Nat → BitVec w) (x : BitVec w) :
    js.foldl (fun x j => if J.srcLnk.getD j 0 = v then x + f j else x) x =
      x + ((js.filter fun j => J.srcLnk.getD j 0 = v).map f).sum := by
  induction js generalizing x with
  | nil => simp
  | cons j js ih =>
    rw [List.foldl_cons, ih]
    by_cases hj : J.srcLnk.getD j 0 = v
    · rw [if_pos hj, List.filter_cons_of_pos (by simpa using hj), List.map_cons, List.sum_cons,
        BitVec.add_assoc]
    · rw [if_neg hj, List.filter_cons_of_neg (by simpa using hj)]

/-- The source rows with link `v`. -/
def sourceRows (J : JoinArgs w) (v : Int) : List Nat :=
  (List.range J.srcLnk.length).filter fun j => J.srcLnk.getD j 0 = v

lemma rowValue_sum (hop : J.op = .joinSum) (v : Int) :
    rowValue J v 0 = ((sourceRows J v).map J.srcVal).sum := by
  have hstep : stepAt J v = fun x j => if J.srcLnk.getD j 0 = v then x + J.srcVal j else x := by
    funext x j
    rw [stepAt, combine, hop]
  rw [rowValue, hstep, foldl_add_eq]
  exact BitVec.zero_add _

lemma rowValue_cnt (hop : J.op = .joinCnt) (v : Int) :
    rowValue J v 0 = BitVec.ofNat w (sourceRows J v).length := by
  have hstep : stepAt J v = fun x j => if J.srcLnk.getD j 0 = v then x + 1 else x := by
    funext x j
    rw [stepAt, combine, hop]
  have hones : ∀ js : List Nat, (js.map fun _ => (1 : BitVec w)).sum = BitVec.ofNat w js.length := by
    intro js
    induction js with
    | nil => rfl
    | cons j js ih =>
      rw [List.map_cons, List.sum_cons, ih, List.length_cons, Nat.add_comm, BitVec.ofNat_add]
      rfl
  rw [rowValue, hstep, foldl_add_eq]
  exact (BitVec.zero_add _).trans (hones _)

lemma rowValue_exists (hop : J.op = .joinExists) (v : Int) (x : BitVec w) :
    rowValue J v x = if v ∈ J.srcLnk then 1 else x := by
  have hfold : ∀ (js : List Nat) (x : BitVec w), js.foldl (stepAt J v) x =
      if ∃ j ∈ js, J.srcLnk.getD j 0 = v then 1 else x := by
    intro js
    induction js with
    | nil => simp
    | cons j js ih =>
      intro x
      rw [List.foldl_cons, ih]
      by_cases hj : J.srcLnk.getD j 0 = v
      · simp only [stepAt, combine, hop, hj, if_true, List.exists_mem_cons_iff, true_or, ite_self]
      · simp only [stepAt, hj, if_false, List.exists_mem_cons_iff, false_or]
  rw [rowValue, hfold]
  refine if_congr ⟨?_, fun hv => ?_⟩ rfl rfl
  · rintro ⟨j, hj, rfl⟩
    exact getD_mem (List.mem_range.mp hj)
  · obtain ⟨j, hj, hv⟩ := exists_getD_of_mem hv
    exact ⟨j, List.mem_range.mpr hj, hv⟩

/-- A row with link `v` gets the value 0. -/
def Vanishes (J : JoinArgs w) (v : Int) : Prop :=
  match J.op with
  | .joinCnt => 2 ^ w ∣ (sourceRows J v).length
  | .joinSum => ((sourceRows J v).map J.srcVal).sum = 0
  | _ => v ∉ J.srcLnk

lemma rowValue_eq_zero_iff (hw : 0 < w) (hop : J.op.fromZero = true) (v : Int) :
    rowValue J v 0 = 0 ↔ Vanishes J v := by
  rw [Vanishes]
  cases h : J.op with
  | joinCnt =>
    rw [rowValue_cnt h, Nat.dvd_iff_mod_eq_zero, ← BitVec.toNat_inj, BitVec.toNat_ofNat]
    simp
  | joinSum => rw [rowValue_sum h]
  | joinExists =>
    rw [rowValue_exists h]
    simp [hw.ne']
  | joinReg | joinOr | joinAnd | joinMin | joinMax | joinMinidx | joinMaxidx =>
    rw [h] at hop
    cases hop

/-! ### Blocks -/

/-- A block whose rows hold 0 before. -/
lemma coreSrtJoin_fromZero (hl : Ascending J.srcLnk) (hd : Ascending J.dstLnk)
    (hop : J.op.fromZero = true) (hle : lb ≤ ub) (hub : ub ≤ J.dstLnk.length) {X : Nat → BitVec w}
    (hX : ∀ j, lb ≤ j → j < ub → X j = 0) (nn : Nat → Bool) {out : JoinOut w}
    (hout : coreSrtJoin J lb ub X nn = out) :
    (out.isAnyNull = true ↔ Noticed J lb ub) ∧
      ∀ j, out.val j = if lb ≤ j ∧ j < ub then rowValue J (J.link j) 0
        else setInit J.op lb ub X j := by
  have hnn := hasNn_of_fromZero hop
  have hfalse : ¬ J.op.hasNn = true := by rw [hnn]; exact Bool.false_ne_true
  have hzero : ∀ j, lb ≤ j → j < ub → setInit J.op lb ub X j = 0 := by
    intro j h1 h2
    have hinit := setInit_fromZero lb ub hop fun _ => .inl (hX j h1 h2)
    by_cases hover : Overwrites J.op w (ub - lb) j
    · exact hinit.1 hover
    · exact (hinit.2 hover).trans (hX j h1 h2)
  obtain ⟨s, hs⟩ : ∃ s, joinLoop J lb (ub - lb) lb ⟨⟨setInit J.op lb ub X, nn, false⟩, 0⟩ = s :=
    ⟨_, rfl⟩
  obtain ⟨⟨hval, -⟩, hnull⟩ := joinLoop_block hl hd hle hub hzero (fun h => absurd h hfalse) hs
  have hout' : out = s.toJoinOut := by
    rw [← hout, coreSrtJoin, if_neg hfalse, hs]
    exact if_neg fun h => hfalse h.1
  rw [hout']
  exact ⟨hnull, hval⟩

/-- One of the blocks after `t` and before `m` overwrites row `j`. -/
def LostIn (J : JoinArgs w) (nT t m j : Nat) : Prop :=
  ∃ t', t < t' ∧ t' < m ∧ Overwrites J.op w
    (blockStart J.dstLnk.length nT (t' + 1) - blockStart J.dstLnk.length nT t') j

/-- What the first `m` blocks leave in a new file. -/
structure AfterZeroes (J : JoinArgs w) (nT m : Nat) (out : JoinOut w) : Prop where
  lost : ∀ t < m, ∀ j, InBlock J nT t j → LostIn J nT t m j → out.val j = 0
  kept : ∀ t < m, ∀ j, InBlock J nT t j → ¬ LostIn J nT t m j →
    out.val j = rowValue J (J.link j) 0
  rest : ∀ t, m ≤ t → t < nT → ∀ j, InBlock J nT t j → out.val j = 0
  null : out.isAnyNull = true ↔ ∃ t < m, NoticedIn J nT t

lemma AfterZeroes.zero_or_one {m : Nat} {out : JoinOut w} (h : AfterZeroes J nT m out)
    (hop : J.op = .joinExists) {t j : Nat} (ht : t < nT) (hj : InBlock J nT t j) :
    out.val j = 0 ∨ out.val j = 1 := by
  by_cases htm : t < m
  · by_cases hlost : LostIn J nT t m j
    · exact .inl (h.lost t htm j hj hlost)
    · rw [h.kept t htm j hj hlost, rowValue_exists hop]
      split_ifs
      · exact .inr rfl
      · exact .inl rfl
  · exact .inl (h.rest t (by omega) ht j hj)

lemma lostIn_succ {t m j : Nat} (htm : t < m) :
    LostIn J nT t (m + 1) j ↔ LostIn J nT t m j ∨ Overwrites J.op w
      (blockStart J.dstLnk.length nT (m + 1) - blockStart J.dstLnk.length nT m) j := by
  constructor
  · rintro ⟨t', h1, h2, hover⟩
    rcases Nat.lt_succ_iff_lt_or_eq.mp h2 with hlt | rfl
    · exact .inl ⟨t', h1, hlt, hover⟩
    · exact .inr hover
  · rintro (⟨t', h1, h2, hover⟩ | hover)
    · exact ⟨t', h1, by omega, hover⟩
    · exact ⟨m, htm, by omega, hover⟩

lemma AfterZeroes.joinBlock (hl : Ascending J.srcLnk) (hd : Ascending J.dstLnk)
    (hop : J.op.fromZero = true) {m : Nat} {out : JoinOut w} (h : AfterZeroes J nT m out)
    (hm : m < nT) : AfterZeroes J nT (m + 1) (joinBlock J nT out m) := by
  obtain ⟨block, hblock⟩ : ∃ block, coreSrtJoin J (blockStart J.dstLnk.length nT m)
    (blockStart J.dstLnk.length nT (m + 1)) out.val out.nn = block := ⟨_, rfl⟩
  obtain ⟨hnull, hval⟩ := coreSrtJoin_fromZero hl hd hop (blockStart_le_succ hm) (blockStart_le hm)
    (fun j h1 h2 => h.rest m le_rfl hm j ⟨h1, h2⟩) out.nn hblock
  have hother : ∀ t, t ≠ m → t < nT → ∀ j, InBlock J nT t j →
      (Overwrites J.op w
        (blockStart J.dstLnk.length nT (m + 1) - blockStart J.dstLnk.length nT m) j →
          block.val j = 0) ∧
      (¬ Overwrites J.op w
        (blockStart J.dstLnk.length nT (m + 1) - blockStart J.dstLnk.length nT m) j →
          block.val j = out.val j) := by
    intro t hne ht j hj
    have hout : ¬ InBlock J nT m j := by
      rcases Nat.lt_or_gt_of_ne hne with hlt | hgt
      · exact hj.disjoint hlt hm
      · exact fun hj' => hj'.disjoint hgt ht hj
    have hinit := setInit_fromZero (blockStart J.dstLnk.length nT m)
      (blockStart J.dstLnk.length nT (m + 1)) hop fun he => h.zero_or_one he ht hj
    exact ⟨fun ho => ((hval j).trans (if_neg hout)).trans (hinit.1 ho),
      fun ho => ((hval j).trans (if_neg hout)).trans (hinit.2 ho)⟩
  rw [joinBlock_eq hm, hblock]
  refine ⟨fun t ht j hj hlost => ?_, fun t ht j hj hlost => ?_, fun t h1 h2 j hj => ?_, ?_⟩
  · rcases Nat.lt_succ_iff_lt_or_eq.mp ht with hlt | rfl
    · have hcell := hother t (by omega) (by omega) j hj
      rcases (lostIn_succ hlt).mp hlost with hlost | hover
      · by_cases hover : Overwrites J.op w
          (blockStart J.dstLnk.length nT (m + 1) - blockStart J.dstLnk.length nT m) j
        · exact hcell.1 hover
        · exact (hcell.2 hover).trans (h.lost t hlt j hj hlost)
      · exact hcell.1 hover
    · obtain ⟨t', h1, h2, -⟩ := hlost
      omega
  · rcases Nat.lt_succ_iff_lt_or_eq.mp ht with hlt | rfl
    · rw [lostIn_succ hlt, not_or] at hlost
      exact ((hother t (by omega) (by omega) j hj).2 hlost.2).trans (h.kept t hlt j hj hlost.1)
    · exact (hval j).trans (if_pos hj)
  · have hcell := hother t (by omega) h2 j hj
    by_cases hover : Overwrites J.op w
      (blockStart J.dstLnk.length nT (m + 1) - blockStart J.dstLnk.length nT m) j
    · exact hcell.1 hover
    · exact (hcell.2 hover).trans (h.rest t (by omega) h2 j hj)
  · rw [Bool.or_eq_true, h.null, hnull]
    exact Nat.exists_lt_succ_right.symm

lemma afterZeroes_foldl (hl : Ascending J.srcLnk) (hd : Ascending J.dstLnk)
    (hop : J.op.fromZero = true) (nT : Nat) {X : Nat → BitVec w}
    (hX : ∀ j < J.dstLnk.length, X j = 0) (nn : Nat → Bool) {m : Nat} (hm : m ≤ nT) :
    AfterZeroes J nT m ((List.range m).foldl (joinBlock J nT) ⟨X, nn, false⟩) := by
  induction m with
  | zero =>
    refine ⟨fun t ht => absurd ht (by omega), fun t ht => absurd ht (by omega),
      fun t _ ht j hj => hX j (hj.2.trans_le (blockStart_le ht)), ?_⟩
    simp
  | succ m ih =>
    rw [List.range_succ, List.foldl_append]
    exact (ih (by omega)).joinBlock hl hd hop (by omega)

/-- Only values that are 0 anyway are overwritten. -/
def NothingLost (J : JoinArgs w) (nT : Nat) : Prop :=
  ∀ t < nT, ∀ j, InBlock J nT t j → LostIn J nT t nT j → Vanishes J (J.link j)

lemma same_fromZero_iff (hw : 0 < w) (hl : Ascending J.srcLnk) (hd : Ascending J.dstLnk)
    (hop : J.op.fromZero = true) (h0 : 0 < nT) {X : Nat → BitVec w}
    (hX : ∀ j < J.dstLnk.length, X j = 0) (nn : Nat → Bool) :
    JoinOut.Same J.op J.dstLnk.length (srtJoinBlocks J nT X nn) (srtJoinBlocks J 1 X nn) ↔
      NothingLost J nT := by
  have hblocks : AfterZeroes J nT nT (srtJoinBlocks J nT X nn) :=
    afterZeroes_foldl hl hd hop nT hX nn le_rfl
  have hone : AfterZeroes J 1 1 (srtJoinBlocks J 1 X nn) :=
    afterZeroes_foldl hl hd hop 1 hX nn le_rfl
  have hnn := hasNn_of_fromZero hop
  have hsingle : ∀ j < J.dstLnk.length,
      (srtJoinBlocks J 1 X nn).val j = rowValue J (J.link j) 0 := by
    intro j hj
    refine hone.kept 0 one_pos j (inBlock_one.mpr hj) ?_
    rintro ⟨t', h1, h2, -⟩
    omega
  have hnull : (srtJoinBlocks J nT X nn).isAnyNull = (srtJoinBlocks J 1 X nn).isAnyNull := by
    rw [Bool.eq_iff_iff, hblocks.null, hone.null]
    simp only [NoticedIn, noticed_iff_gap hnn]
    exact (gap_iff h0).symm.trans (gap_iff one_pos)
  have hin : ∀ {tid j : Nat}, tid < nT → InBlock J nT tid j → j < J.dstLnk.length :=
    fun htid hj => hj.2.trans_le (blockStart_le htid)
  constructor
  · rintro ⟨hval, -⟩ t ht j hj hlost
    rw [← rowValue_eq_zero_iff hw hop, ← hsingle j (hin ht hj), ← hval j (hin ht hj)]
    exact hblocks.lost t ht j hj hlost
  · intro h
    refine ⟨fun j hj => ?_, fun hop' => absurd hop' (by rw [hnn]; exact Bool.false_ne_true), hnull⟩
    have hend : blockStart J.dstLnk.length nT nT = J.dstLnk.length := if_pos rfl
    obtain ⟨t, ht, hrow⟩ := exists_block h0 (hj.trans_eq hend.symm)
    rw [hsingle j hj]
    by_cases hlost : LostIn J nT t nT j
    · rw [hblocks.lost t ht j hrow hlost, (rowValue_eq_zero_iff hw hop _).mpr (h t ht j hrow hlost)]
    · exact hblocks.kept t ht j hrow hlost

/-! ### All operations -/

/-- When the blocks together do what one block does. -/
def BlocksAgree (J : JoinArgs w) (nT : Nat) : Prop :=
  match J.op with
  | .joinReg | .joinOr => FlagsAgree J nT
  | .joinAnd | .joinMin | .joinMax => FlagsAgree J nT ∧ ClearedAgree J nT
  | .joinCnt | .joinSum | .joinExists => NothingLost J nT
  | .joinMinidx | .joinMaxidx => nT = 1

lemma initialValue_ne_zero (hw : w = 32 ∨ w = 64) {op : JoinOp}
    (hop : op = .joinAnd ∨ op = .joinMin ∨ op = .joinMax) : initialValue w op ≠ 0 := by
  rcases hw with rfl | rfl <;> rcases hop with rfl | rfl | rfl <;> decide

end

end Datacl
