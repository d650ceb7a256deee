import Datacl.Join.Matching

/-!
# When the sorted join does not depend on the number of blocks

A block of its own can notice a missing link that a longer block overlooks, and the other way round.
The operations without a null column initialise the beginning of the file instead of their block.
-/

namespace Datacl

section

variable {w : Nat} {J : JoinArgs w} {lb ub : Nat}

/-! ### Which missing links are noticed -/

/-- A link of the rows `[lb, ub)` is missing in the source although the source goes on. -/
def Gap (J : JoinArgs w) (lb ub : Nat) : Prop :=
  ∃ j, lb ≤ j ∧ j < ub ∧ J.link j ∉ J.srcLnk ∧ ∃ s ∈ J.srcLnk, J.link j < s

/-- The largest link of the source occurs in the rows `[lb, ub)`. -/
def HasLargest (J : JoinArgs w) (lb ub : Nat) : Prop :=
  ∃ j, lb ≤ j ∧ j < ub ∧ J.link j ∈ J.srcLnk ∧ ∀ s ∈ J.srcLnk, s ≤ J.link j

/-- A link of the rows `[lb, ub)` is larger than all links of the source. -/
def Beyond (J : JoinArgs w) (lb ub : Nat) : Prop :=
  J.srcLnk ≠ [] ∧ ∃ j, lb ≤ j ∧ j < ub ∧ ∀ s ∈ J.srcLnk, s < J.link j

/-- Some row without a match is noticed. -/
def Noticed (J : JoinArgs w) (lb ub : Nat) : Prop :=
  ∃ j, lb ≤ j ∧ j < ub ∧ ¬ Ended J lb j ∧ NullAt J j

lemma not_ended_of_lt {j : Nat} {s : Int} (hs : s ∈ J.srcLnk) (hlt : J.link j < s) :
    ¬ Ended J lb j := by
  rintro (hnil | ⟨k, -, -, hk, hall⟩)
  · rw [hnil] at hs
    cases hs
  · exact absurd (hall s hs) (not_le.mpr (hk.trans hlt))

lemma noticed_iff_gap (hop : J.op.hasNn = false) : Noticed J lb ub ↔ Gap J lb ub := by
  constructor
  · rintro ⟨j, h1, h2, -, hmiss, hnull⟩
    exact ⟨j, h1, h2, hmiss, hnull.resolve_left (by simp [hop])⟩
  · rintro ⟨j, h1, h2, hmiss, s, hs, hlt⟩
    exact ⟨j, h1, h2, not_ended_of_lt hs hlt, hmiss, .inr ⟨s, hs, hlt⟩⟩

/-- The first link that is too large is noticed unless the source ended with a match. -/
lemma noticed_of_beyond (hop : J.op.hasNn = true) (hbeyond : Beyond J lb ub)
    (hlargest : ¬ HasLargest J lb ub) : Noticed J lb ub := by
  classical
  obtain ⟨hne, hex⟩ := hbeyond
  obtain ⟨h1, h2, hall⟩ := Nat.find_spec hex
  refine ⟨Nat.find hex, h1, h2, ?_, fun hmem => lt_irrefl _ (hall _ hmem), .inl hop⟩
  rintro (hnil | ⟨k, hk1, hk2, -, hmax⟩)
  · exact hne hnil
  · by_cases hmem : J.link k ∈ J.srcLnk
    · exact hlargest ⟨k, hk1, by omega, hmem, hmax⟩
    · refine Nat.find_min hex hk2 ⟨hk1, by omega, fun s hs => ?_⟩
      exact lt_of_le_of_ne (hmax s hs) fun heq => hmem (heq ▸ hs)

lemma noticed_iff (hd : Ascending J.dstLnk) (hub : ub ≤ J.dstLnk.length) (hop : J.op.hasNn = true) :
    Noticed J lb ub ↔ Gap J lb ub ∨ Beyond J lb ub ∧ ¬ HasLargest J lb ub := by
  constructor
  · rintro ⟨j, h1, h2, hrun, hmiss, -⟩
    by_cases hex : ∃ s ∈ J.srcLnk, J.link j < s
    · exact .inl ⟨j, h1, h2, hmiss, hex⟩
    · push Not at hex
      have hall : ∀ s ∈ J.srcLnk, s < J.link j :=
        fun s hs => lt_of_le_of_ne (hex s hs) fun heq => hmiss (heq ▸ hs)
      refine .inr ⟨⟨fun hnil => hrun (.inl hnil), j, h1, h2, hall⟩, ?_⟩
      rintro ⟨k, hk1, hk2, hmem, hmax⟩
      have hkj : k < j := by
        by_contra hge
        exact absurd (hd.getD_le (not_lt.mp hge) (by omega)) (not_le.mpr (hall _ hmem))
      exact hrun (.inr ⟨k, hk1, hkj, hall _ hmem, hmax⟩)
  · rintro (⟨j, h1, h2, hmiss, s, hs, hlt⟩ | ⟨hbeyond, hlargest⟩)
    · exact ⟨j, h1, h2, not_ended_of_lt hs hlt, hmiss, .inl hop⟩
    · exact noticed_of_beyond hop hbeyond hlargest

/-! ### One block -/

/-- The value that all rows begin with. -/
def initialValue (w : Nat) : JoinOp → BitVec w
  | .joinAnd => BitVec.allOnes w
  | .joinMin => BitVec.intMax w
  | .joinMax => BitVec.intMin w
  | .joinMinidx | .joinMaxidx => -1
  | _ => 0

/-- A row of a block: `noticed` says whether the block clears the values without a match. -/
def cellOf (J : JoinArgs w) (noticed : Bool) (j : Nat) : BitVec w :=
  if J.link j ∉ J.srcLnk ∧ noticed = true then 0 else rowValue J (J.link j) (initialValue w J.op)

lemma setInit_hasNn {op : JoinOp} (hop : op.hasNn = true) (X : Nat → BitVec w) :
    setInit op lb ub X = assignConst lb ub (initialValue w op) X := by
  cases op <;> first | rfl | cases hop

lemma assignConst_of_mem {α : Type} {c : α} {X : Nat → α} {j : Nat} (h1 : lb ≤ j) (h2 : j < ub) :
    assignConst lb ub c X j = c := if_pos ⟨h1, h2⟩

lemma assignConst_of_not_mem {α : Type} {c : α} {X : Nat → α} {j : Nat} (h : ¬ (lb ≤ j ∧ j < ub)) :
    assignConst lb ub c X j = X j := if_neg h

/-- The main loop of a block whose rows all begin with the same value. -/
lemma joinLoop_block (hl : Ascending J.srcLnk) (hd : Ascending J.dstLnk) {c : BitVec w}
    {X : Nat → BitVec w} {nn : Nat → Bool} (hle : lb ≤ ub) (hub : ub ≤ J.dstLnk.length)
    (hX : ∀ j, lb ≤ j → j < ub → X j = c)
    (hnn : J.op.hasNn = true → ∀ j, lb ≤ j → j < ub → nn j = false) {s : JoinState w}
    (hs : joinLoop J lb (ub - lb) lb ⟨⟨X, nn, false⟩, 0⟩ = s) :
    ((∀ j, s.val j = if lb ≤ j ∧ j < ub then rowValue J (J.link j) c else X j) ∧
      (J.op.hasNn = true → ∀ j, s.nn j =
        if lb ≤ j ∧ j < ub then decide (J.link j ∈ J.srcLnk) else nn j)) ∧
      (s.isAnyNull = true ↔ Noticed J lb ub) := by
  have hadd : lb + (ub - lb) = ub := by omega
  have hspec := joinLoop_spec hl hd (ub - lb) (LoopAt.start X nn c) le_rfl (by omega)
    (fun j h1 h2 => hX j h1 (by omega)) (fun hop j h1 h2 => hnn hop j h1 (by omega))
  rw [hadd, hs] at hspec
  exact hspec

/-- A block of an operation with a null column. -/
lemma coreSrtJoin_hasNn (hl : Ascending J.srcLnk) (hd : Ascending J.dstLnk)
    (hop : J.op.hasNn = true) (hle : lb ≤ ub) (hub : ub ≤ J.dstLnk.length) (X : Nat → BitVec w)
    (nn : Nat → Bool) {out : JoinOut w} (hout : coreSrtJoin J lb ub X nn = out) :
    (out.isAnyNull = true ↔ Noticed J lb ub) ∧
      (∀ j, out.val j = if lb ≤ j ∧ j < ub then cellOf J out.isAnyNull j else X j) ∧
      ∀ j, out.nn j = if lb ≤ j ∧ j < ub then decide (J.link j ∈ J.srcLnk) else nn j := by
  obtain ⟨s, hs⟩ : ∃ s, joinLoop J lb (ub - lb) lb
      ⟨⟨setInit J.op lb ub X, assignConst lb ub false nn, false⟩, 0⟩ = s := ⟨_, rfl⟩
  obtain ⟨⟨hval, hnn⟩, hnull⟩ := joinLoop_block hl hd hle hub (c := initialValue w J.op)
    (fun j h1 h2 => by rw [setInit_hasNn hop, assignConst_of_mem h1 h2])
    (fun _ j h1 h2 => assignConst_of_mem h1 h2) hs
  have hout' : out = clearNulls J.op lb ub s.toJoinOut := by
    rw [← hout, coreSrtJoin, if_pos hop, hs]
  have hnn' : ∀ j, s.nn j = if lb ≤ j ∧ j < ub then decide (J.link j ∈ J.srcLnk) else nn j := by
    intro j
    rw [hnn hop]
    split_ifs with hj
    · rfl
    · exact assignConst_of_not_mem hj
  rw [setInit_hasNn hop] at hval
  by_cases hflag : s.isAnyNull = true
  · rw [clearNulls, if_pos ⟨hop, hflag⟩] at hout'
    subst hout'
    refine ⟨hnull, fun j => ?_, hnn'⟩
    dsimp only
    rw [hval, hnn']
    by_cases hj : lb ≤ j ∧ j < ub
    · rw [if_pos hj, if_pos hj, if_pos hj, cellOf]
      refine if_congr ?_ rfl rfl
      simp [hj, hflag]
    · rw [if_neg (fun h => hj ⟨h.1, h.2.1⟩), if_neg hj, if_neg hj, assignConst_of_not_mem hj]
  · rw [clearNulls, if_neg (fun h => hflag h.2)] at hout'
    subst hout'
    refine ⟨hnull, fun j => ?_, hnn'⟩
    rw [hval]
    by_cases hj : lb ≤ j ∧ j < ub
    · rw [if_pos hj, if_pos hj, cellOf, if_neg (fun h => hflag h.2)]
    · rw [if_neg hj, if_neg hj, assignConst_of_not_mem hj]

/-! ### All blocks -/

section Blocks

/-- The first row of block `tid`, and the end of the file for `tid = nT`. -/
def blockStart (nR nT tid : Nat) : Nat := if tid = nT then nR else tid * (nR / nT)

lemma blockBounds_eq {nR nT tid : Nat} (h : tid < nT) :
    blockBounds nR (nR / nT) nT tid = (blockStart nR nT tid, blockStart nR nT (tid + 1)) := by
  have hne : ¬ tid = nT := by omega
  rw [blockBounds, blockStart, blockStart, if_neg hne, Nat.succ_mul]

lemma blockStart_zero {nR nT : Nat} (h : 0 < nT) : blockStart nR nT 0 = 0 := by
  rw [blockStart, if_neg (by omega), Nat.zero_mul]

lemma blockStart_le_succ {nR nT tid : Nat} (h : tid < nT) :
    blockStart nR nT tid ≤ blockStart nR nT (tid + 1) := by
  rw [blockStart, blockStart, if_neg (by omega)]
  split_ifs
  · exact (Nat.mul_le_mul_right _ h.le).trans (Nat.mul_div_le nR nT)
  · exact Nat.mul_le_mul_right _ (Nat.le_succ tid)

lemma blockStart_mono {nR nT t t' : Nat} (hle : t ≤ t') (h : t' ≤ nT) :
    blockStart nR nT t ≤ blockStart nR nT t' := by
  induction t', hle using Nat.le_induction with
  | base => exact le_rfl
  | succ t' _ ih => exact (ih (by omega)).trans (blockStart_le_succ (by omega))

lemma blockStart_le {nR nT tid : Nat} (h : tid ≤ nT) : blockStart nR nT tid ≤ nR := by
  have hend : blockStart nR nT nT = nR := if_pos rfl
  exact (blockStart_mono h le_rfl).trans hend.le

/-- Every row is in a block. -/
lemma exists_block {nR nT m j : Nat} (h0 : 0 < nT) (hj : j < blockStart nR nT m) :
    ∃ t < m, blockStart nR nT t ≤ j ∧ j < blockStart nR nT (t + 1) := by
  induction m with
  | zero =>
    rw [blockStart_zero h0] at hj
    omega
  | succ m ih =>
    by_cases hlt : j < blockStart nR nT m
    · obtain ⟨t, ht, hrow⟩ := ih hlt
      exact ⟨t, by omega, hrow⟩
    · exact ⟨m, by omega, by omega, hj⟩

/-- The rows of block `tid`. -/
def InBlock (J : JoinArgs w) (nT tid j : Nat) : Prop :=
  blockStart J.dstLnk.length nT tid ≤ j ∧ j < blockStart J.dstLnk.length nT (tid + 1)

/-- A missing link is noticed in block `tid`. -/
def NoticedIn (J : JoinArgs w) (nT tid : Nat) : Prop :=
  Noticed J (blockStart J.dstLnk.length nT tid) (blockStart J.dstLnk.length nT (tid + 1))

lemma InBlock.disjoint {nT t t' j : Nat} (h : InBlock J nT t j) (hlt : t < t') (ht' : t' < nT) :
    ¬ InBlock J nT t' j := fun h' => by
  have hmono : blockStart J.dstLnk.length nT (t + 1) ≤ blockStart J.dstLnk.length nT t' :=
    blockStart_mono hlt ht'.le
  exact absurd (h.2.trans_le hmono) (not_lt.mpr h'.1)

lemma joinBlock_eq {nT tid : Nat} (h : tid < nT) (out : JoinOut w) :
    joinBlock J nT out tid =
      let block := coreSrtJoin J (blockStart J.dstLnk.length nT tid)
        (blockStart J.dstLnk.length nT (tid + 1)) out.val out.nn
      ⟨block.val, block.nn, out.isAnyNull || block.isAnyNull⟩ := by
  rw [joinBlock, blockBounds_eq h]

/-- What the first `m` blocks leave, for an operation with a null column. -/
structure AfterBlocks (J : JoinArgs w) (nT m : Nat) (out : JoinOut w) : Prop where
  rows : ∀ t < m, ∃ noticed : Bool, (noticed = true ↔ NoticedIn J nT t) ∧
    ∀ j, InBlock J nT t j →
      out.val j = cellOf J noticed j ∧ out.nn j = decide (J.link j ∈ J.srcLnk)
  null : out.isAnyNull = true ↔ ∃ t < m, NoticedIn J nT t

lemma AfterBlocks.joinBlock (hl : Ascending J.srcLnk) (hd : Ascending J.dstLnk)
    (hop : J.op.hasNn = true) {nT m : Nat} {out : JoinOut w} (h : AfterBlocks J nT m out)
    (hm : m < nT) : AfterBlocks J nT (m + 1) (joinBlock J nT out m) := by
  obtain ⟨block, hblock⟩ : ∃ block, coreSrtJoin J (blockStart J.dstLnk.length nT m)
    (blockStart J.dstLnk.length nT (m + 1)) out.val out.nn = block := ⟨_, rfl⟩
  obtain ⟨hnull, hval, hnn⟩ := coreSrtJoin_hasNn hl hd hop (blockStart_le_succ hm)
    (blockStart_le hm) out.val out.nn hblock
  rw [joinBlock_eq hm, hblock]
  refine ⟨fun t ht => ?_, ?_⟩
  · rcases Nat.lt_succ_iff_lt_or_eq.mp ht with hlt | rfl
    · obtain ⟨noticed, hiff, hrows⟩ := h.rows t hlt
      refine ⟨noticed, hiff, fun j hj => ?_⟩
      have hout := hj.disjoint hlt hm
      exact ⟨((hval j).trans (if_neg hout)).trans (hrows j hj).1,
        ((hnn j).trans (if_neg hout)).trans (hrows j hj).2⟩
    · refine ⟨block.isAnyNull, hnull, fun j hj => ?_⟩
      exact ⟨(hval j).trans (if_pos hj), (hnn j).trans (if_pos hj)⟩
  · rw [Bool.or_eq_true, h.null, hnull]
    exact Nat.exists_lt_succ_right.symm

lemma afterBlocks_foldl (hl : Ascending J.srcLnk) (hd : Ascending J.dstLnk)
    (hop : J.op.hasNn = true) (nT : Nat) (X : Nat → BitVec w) (nn : Nat → Bool) {m : Nat}
    (hm : m ≤ nT) :
    AfterBlocks J nT m ((List.range m).foldl (joinBlock J nT) ⟨X, nn, false⟩) := by
  induction m with
  | zero =>
    refine ⟨fun t ht => absurd ht (by omega), ?_⟩
    simp
  | succ m ih =>
    rw [List.range_succ, List.foldl_append]
    exact (ih (by omega)).joinBlock hl hd hop (by omega)

end Blocks

end

end Datacl
