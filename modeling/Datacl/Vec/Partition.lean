import Datacl.Lib.CInt
import Mathlib.Data.List.Basic

/-!
# Vector operations run block by block

`partition` chooses the blocks and each vector operation treats them one after another or in
parallel; a block reads and writes its own slice of the columns.
-/

namespace Datacl

/-- `num_chunks`, an `int`. -/
def numChunks (numToDivide minBlockSize maxNumChunks : Int) : Int :=
  let n := CInt.wrap 32 (numToDivide / minBlockSize)
  let n := if n = 0 then 1 else n
  if 0 < maxNumChunks ∧ maxNumChunks < n then maxNumChunks else n

/-- `partition`: `(block_size, num_chunks)`. The division is C's, which rounds towards 0. -/
def partition (numToDivide minBlockSize maxNumChunks : Int) : Option (Int × Int) :=
  if numToDivide ≤ 0 then none
  else if minBlockSize ≤ 0 then none
  else
    let n := numChunks numToDivide minBlockSize maxNumChunks
    let blockSize := numToDivide.tdiv n
    if blockSize ≤ numToDivide - blockSize * n then none
    else if blockSize * CInt.wrap 32 (n + 1) < numToDivide then none
    else some (blockSize, n)

/-- `lb` and `ub` of block `tid`; the last block ends with the column. -/
def blockBounds (nR blockSize nT tid : Nat) : Nat × Nat :=
  (tid * blockSize, if tid + 1 = nT then nR else tid * blockSize + blockSize)

/-- The rows of a block. -/
def blockOf {α : Type} (col : List α) (blockSize nT tid : Nat) : List α :=
  let (lb, ub) := blockBounds col.length blockSize nT tid
  (col.drop lb).take (ub - lb)

/-- A vector operation that treats every row by itself: the blocks it writes, in their order. -/
def vecMap {α β : Type} (minBlockSize : Nat) (f : α → β) (col : List α) : Option (List β) :=
  match partition col.length minBlockSize (-1) with
  | none => none
  | some (blockSize, nT) =>
    some ((List.range nT.toNat).flatMap fun tid =>
      (blockOf col blockSize.toNat nT.toNat tid).map f)

/-! ### Blocks cover the column -/

lemma partition_spec {nR minBlockSize maxNumChunks blockSize nT : Int}
    (h : partition nR minBlockSize maxNumChunks = some (blockSize, nT)) :
    0 < nR ∧ 0 < nT ∧ 0 < blockSize ∧ nT * blockSize ≤ nR ∧ nR < (nT + 1) * blockSize := by
  rw [partition] at h
  generalize numChunks nR minBlockSize maxNumChunks = n at h
  split_ifs at h with h0 h1
  dsimp only at h
  split_ifs at h with h2 h3
  obtain ⟨rfl, rfl⟩ : nR.tdiv n = blockSize ∧ n = nT := by simpa using h
  have hdm := Int.mul_tdiv_add_tmod nR n
  have hrem := Int.tmod_nonneg n (by omega : 0 ≤ nR)
  have hmul : n * nR.tdiv n = nR.tdiv n * n := Int.mul_comm ..
  have hpos : 0 < nR.tdiv n := by omega
  have hn : 0 < n := by
    by_contra hneg
    have hle : nR.tdiv n ≤ 0 := Int.tdiv_nonpos_of_nonneg_of_nonpos (by omega) (by omega)
    omega
  refine ⟨by omega, hn, hpos, by omega, ?_⟩
  rw [Int.add_mul, Int.one_mul]
  omega

/-- The number of chunks is the quotient, a cap below it, or 1. -/
lemma numChunks_cases {nR minBlockSize : Int} (maxNumChunks : Int) (hq0 : 0 ≤ nR / minBlockSize)
    (hq : nR / minBlockSize < 2 ^ 31) :
    (numChunks nR minBlockSize maxNumChunks = nR / minBlockSize ∧ 0 < nR / minBlockSize) ∨
      numChunks nR minBlockSize maxNumChunks = 1 ∨
      (numChunks nR minBlockSize maxNumChunks = maxNumChunks ∧ 0 < maxNumChunks ∧
        maxNumChunks < nR / minBlockSize) := by
  have hwrap : CInt.wrap 32 (nR / minBlockSize) = nR / minBlockSize := CInt.wrap_of_lt hq0 hq
  simp only [numChunks, hwrap]
  split_ifs <;> omega

/-- Of fewer chunks than the quotient none is shorter than the minimum. -/
lemma min_le_tdiv {nR minBlockSize n : Int} (h0 : 0 ≤ nR) (hmin : 0 < minBlockSize) (hn : 0 < n)
    (hle : n ≤ nR / minBlockSize) : minBlockSize ≤ nR.tdiv n := by
  rw [Int.tdiv_eq_ediv_of_nonneg h0, Int.le_ediv_iff_mul_le hn, Int.mul_comm]
  exact (Int.le_ediv_iff_mul_le hmin).mp hle

/-- As long as the number of chunks fits in an `int` there are blocks, unless a cap is above the size of the
blocks. -/
lemma partition_isSome_of_max {nR minBlockSize maxNumChunks : Int} (h0 : 0 < nR) (hmin : 0 < minBlockSize)
    (hq : nR / minBlockSize < 2 ^ 31 - 1) (hmax : maxNumChunks ≤ 0 ∨ maxNumChunks ≤ minBlockSize) :
    (partition nR minBlockSize maxNumChunks).isSome := by
  have hq0 : 0 ≤ nR / minBlockSize := Int.ediv_nonneg h0.le hmin.le
  have hcases := numChunks_cases maxNumChunks hq0 (by omega)
  obtain ⟨n, hn⟩ : ∃ n, numChunks nR minBlockSize maxNumChunks = n := ⟨_, rfl⟩
  rw [hn] at hcases
  have hpos : 0 < n := by omega
  have hlt31 : n < 2 ^ 31 - 1 := by omega
  have hnext : CInt.wrap 32 (n + 1) = n + 1 := CInt.wrap_of_lt (by omega) (by omega)
  have hdm := Int.mul_tdiv_add_tmod nR n
  have hrem : nR.tmod n < n := Int.tmod_lt_of_pos nR hpos
  have hrem0 : 0 ≤ nR.tmod n := Int.tmod_nonneg n h0.le
  have hsmall : nR.tmod n < nR.tdiv n := by
    obtain ⟨hnq, -⟩ | rfl | ⟨rfl, -, hlt⟩ := hcases
    · -- the rows left over are fewer than a block of the minimum size
      have hle := min_le_tdiv h0.le hmin hpos hnq.le
      have hdiv := Int.mul_ediv_add_emod nR minBlockSize
      have hmod := Int.emod_lt_of_pos nR hmin
      have hmul := Int.mul_le_mul_of_nonneg_left hle hpos.le
      rw [← hnq, Int.mul_comm] at hdiv
      omega
    · rw [Int.tmod_one, Int.tdiv_one]
      exact h0
    · have hle := min_le_tdiv h0.le hmin hpos hlt.le
      omega
  rw [partition, if_neg (by omega), if_neg (by omega)]
  simp only [hn, hnext]
  have hmul : nR.tdiv n * n = n * nR.tdiv n := Int.mul_comm ..
  have hmul' : nR.tdiv n * (n + 1) = n * nR.tdiv n + nR.tdiv n := by rw [Int.mul_add, Int.mul_one, hmul]
  rw [if_neg (by omega), if_neg (by omega)]
  rfl

lemma partition_isSome {nR minBlockSize : Int} (h0 : 0 < nR) (hmin : 0 < minBlockSize)
    (hlt : nR < minBlockSize * (2 ^ 31 - 1)) : (partition nR minBlockSize (-1)).isSome :=
  partition_isSome_of_max h0 hmin (Int.ediv_lt_of_lt_mul hmin (by linarith)) (.inl (by omega))

/-- Every block has rows, and these lie in the column. -/
lemma blockBounds_spec {nR tid : Nat} {minBlockSize maxNumChunks blockSize nT : Int}
    (h : partition nR minBlockSize maxNumChunks = some (blockSize, nT)) (htid : tid < nT.toNat) :
    (blockBounds nR blockSize.toNat nT.toNat tid).1 <
        (blockBounds nR blockSize.toNat nT.toNat tid).2 ∧
      (blockBounds nR blockSize.toNat nT.toNat tid).2 ≤ nR := by
  obtain ⟨-, hn, hb, hle, -⟩ := partition_spec h
  have hmul : (tid + 1) * blockSize.toNat ≤ nT.toNat * blockSize.toNat :=
    Nat.mul_le_mul_right _ htid
  have hcast : ((nT.toNat * blockSize.toNat : Nat) : Int) = nT * blockSize := by
    rw [Nat.cast_mul, Int.toNat_of_nonneg hn.le, Int.toNat_of_nonneg hb.le]
  have hpos : 0 < blockSize.toNat := by omega
  rw [Nat.succ_mul] at hmul
  unfold blockBounds
  dsimp only
  split_ifs <;> omega

/-- The blocks are the column. -/
lemma flatMap_blockOf {α : Type} (col : List α) (blockSize : Nat) {nT : Nat} (hn : 0 < nT) :
    (List.range nT).flatMap (blockOf col blockSize nT) = col := by
  obtain ⟨n, rfl⟩ : ∃ n, nT = n + 1 := ⟨nT - 1, by omega⟩
  have hfirst : ∀ m ≤ n, (List.range m).flatMap (blockOf col blockSize (n + 1)) =
      col.take (m * blockSize) := by
    intro m hm
    induction m with
    | zero => simp
    | succ m ih =>
      have hne : ¬ m + 1 = n + 1 := by omega
      rw [List.range_succ, List.flatMap_append, ih (by omega), List.flatMap_singleton, Nat.succ_mul,
        List.take_add]
      simp only [blockOf, blockBounds, if_neg hne, Nat.add_sub_cancel_left]
  rw [List.range_succ, List.flatMap_append, hfirst n le_rfl, List.flatMap_singleton]
  simp only [blockOf, blockBounds, if_true]
  have hrest : (col.drop (n * blockSize)).take (col.length - n * blockSize) =
      col.drop (n * blockSize) := by
    apply List.take_of_length_le
    rw [List.length_drop]
  rw [hrest, List.take_append_drop]

lemma blockOf_zip {α β : Type} {xs : List α} {ys : List β} {blockSize nT tid : Nat}
    (h : ys.length = xs.length) :
    blockOf (xs.zip ys) blockSize nT tid =
      (blockOf xs blockSize nT tid).zip (blockOf ys blockSize nT tid) := by
  have hlen : (List.zipWith Prod.mk xs ys).length = xs.length := by
    rw [List.length_zipWith, h, Nat.min_self]
  simp only [blockOf, h, List.zip, List.drop_zipWith, List.take_zipWith, hlen]

lemma blockOf_subset {α : Type} (xs : List α) {blockSize nT tid : Nat} :
    blockOf xs blockSize nT tid ⊆ xs := fun _ hx => List.mem_of_mem_drop (List.mem_of_mem_take hx)

/-- Blocks treated one after another fail if one of them does. -/
lemma foldlM_eq_none {σ α : Type} {f : σ → α → Option σ} {l : List α} {a : α} (ha : a ∈ l)
    (h : ∀ s, f s a = none) (s : σ) : l.foldlM f s = none := by
  induction l generalizing s with
  | nil => cases ha
  | cons b l ih =>
    rw [List.foldlM_cons]
    rcases List.mem_cons.mp ha with rfl | hl
    · rw [h]
      rfl
    · cases f s b with
      | none => rfl
      | some s' => exact ih hl s'

/-- Blocks that all succeed. -/
lemma mapM_eq_some_map {α β : Type} {f : α → Option β} {g : α → β} {l : List α}
    (h : ∀ a ∈ l, f a = some (g a)) : l.mapM f = some (l.map g) := by
  induction l with
  | nil => rfl
  | cons a l ih =>
    rw [List.forall_mem_cons] at h
    rw [List.mapM_cons, h.1, ih h.2]
    rfl

lemma vecMap_eq {α β : Type} {minBlockSize : Nat} (f : α → β) {col : List α}
    {p : Int × Int} (h : partition col.length minBlockSize (-1) = some p) :
    vecMap minBlockSize f col = some (col.map f) := by
  obtain ⟨blockSize, nT⟩ := p
  obtain ⟨-, hn, -⟩ := partition_spec h
  rw [vecMap, h]
  dsimp only
  rw [← List.map_flatMap, flatMap_blockOf col blockSize.toNat (by omega)]

lemma vecMap_eq_some_map_iff {α β : Type} {minBlockSize : Nat} (f g : α → β) (col : List α) :
    vecMap minBlockSize f col = some (col.map g) ↔
      (partition col.length minBlockSize (-1)).isSome ∧ ∀ x ∈ col, f x = g x := by
  cases hp : partition col.length minBlockSize (-1) with
  | none =>
    rw [vecMap, hp]
    simp
  | some p =>
    rw [vecMap_eq f hp, Option.some_inj, List.map_inj_left]
    simp

end Datacl
