import Datacl.Vec.Partition

/-!
# The blocks of `partition`

`block_size` times a number of chunks is a `long long`. The last check of the code multiplies it by one chunk
more than there are, which does not fit for the greatest columns.
-/

namespace Datacl

open CInt

/-- `partition` with the products of the code. -/
def partitionI8 (numToDivide minBlockSize maxNumChunks : Int) : Option (Int × Int) :=
  if numToDivide ≤ 0 then none
  else if minBlockSize ≤ 0 then none
  else
    let n := numChunks numToDivide minBlockSize maxNumChunks
    let blockSize := numToDivide.tdiv n
    if blockSize ≤ numToDivide - wrap 64 (blockSize * n) then none
    else if wrap 64 (blockSize * wrap 32 (n + 1)) < numToDivide then none
    else some (blockSize, n)

section

variable {nR minBlockSize maxNumChunks : Int}

/-- The product of the last check. -/
def lastCheck (nR minBlockSize maxNumChunks : Int) : Int :=
  nR / numChunks nR minBlockSize maxNumChunks * (numChunks nR minBlockSize maxNumChunks + 1)

lemma numChunks_pos (maxNumChunks : Int) (hq0 : 0 ≤ nR / minBlockSize) (hq : nR / minBlockSize < 2 ^ 31 - 1) :
    0 < numChunks nR minBlockSize maxNumChunks ∧ numChunks nR minBlockSize maxNumChunks < 2 ^ 31 - 1 := by
  have hcases := numChunks_cases maxNumChunks hq0 (by omega)
  omega

/-- Below `2 ^ 62` rows the product fits. -/
lemma lastCheck_lt (h0 : 0 < nR) (hmin : 0 < minBlockSize) (hq : nR / minBlockSize < 2 ^ 31 - 1)
    (hlt : nR < 2 ^ 62) : lastCheck nR minBlockSize maxNumChunks < 2 ^ 63 := by
  obtain ⟨hpos, -⟩ := numChunks_pos maxNumChunks (Int.ediv_nonneg h0.le hmin.le) hq
  rw [lastCheck]
  generalize numChunks nR minBlockSize maxNumChunks = n at hpos ⊢
  have hmul := Int.ediv_mul_le nR hpos.ne'
  have hle : nR / n ≤ nR := Int.ediv_le_self n h0.le
  rw [Int.mul_add, Int.mul_one]
  omega

lemma partitionI8_eq (h0 : 0 < nR) (hmin : 0 < minBlockSize) (hq : nR / minBlockSize < 2 ^ 31 - 1)
    (hfits : lastCheck nR minBlockSize maxNumChunks < 2 ^ 63) :
    partitionI8 nR minBlockSize maxNumChunks = partition nR minBlockSize maxNumChunks := by
  obtain ⟨hpos, hlt⟩ := numChunks_pos maxNumChunks (Int.ediv_nonneg h0.le hmin.le) hq
  rw [lastCheck, ← Int.tdiv_eq_ediv_of_nonneg h0.le] at hfits
  rw [partitionI8, partition]
  generalize numChunks nR minBlockSize maxNumChunks = n at hpos hlt hfits
  have hblock : 0 ≤ nR.tdiv n := Int.tdiv_nonneg h0.le hpos.le
  have hnext : wrap 32 (n + 1) = n + 1 := wrap_of_lt (by omega) (by omega)
  have hmul : 0 ≤ nR.tdiv n * n := Int.mul_nonneg hblock hpos.le
  rw [Int.mul_add, Int.mul_one] at hfits
  have hproduct : wrap 64 (nR.tdiv n * n) = nR.tdiv n * n := wrap_of_lt hmul (by omega)
  have hproduct' : wrap 64 (nR.tdiv n * (n + 1)) = nR.tdiv n * (n + 1) := by
    rw [Int.mul_add, Int.mul_one]
    exact wrap_of_lt (by omega) hfits
  simp only [hnext, hproduct, hproduct']

end

/-- No block has as many rows as two blocks. -/
lemma blockBounds_lt {nR tid : Nat} {blockSize nT : Nat} (hb : 0 < blockSize)
    (hlt : nR < (nT + 1) * blockSize) :
    (blockBounds nR blockSize nT tid).2 - (blockBounds nR blockSize nT tid).1 < 2 * blockSize := by
  unfold blockBounds
  dsimp only
  split_ifs with hlast
  · rw [← hlast, Nat.succ_mul, Nat.succ_mul] at hlt
    omega
  · omega

/-- The blocks are not empty, tile the rows and are not much longer than `block_size`. -/
theorem partitionI8_tiles {n minBlockSize : Nat} {maxNumChunks : Int} (h0 : 1 ≤ n) (hmin : 1 ≤ minBlockSize)
    (hq : n / minBlockSize < 2 ^ 31 - 1) (hmax : maxNumChunks ≤ 0 ∨ maxNumChunks ≤ minBlockSize)
    (hfits : lastCheck n minBlockSize maxNumChunks < 2 ^ 63) :
    ∃ blockSize nT : Nat, partitionI8 n minBlockSize maxNumChunks = some ((blockSize : Int), (nT : Int)) ∧
      1 ≤ nT ∧
      (∀ tid < nT, (blockBounds n blockSize nT tid).1 < (blockBounds n blockSize nT tid).2 ∧
        (blockBounds n blockSize nT tid).2 - (blockBounds n blockSize nT tid).1 < 2 * blockSize) ∧
      (List.range nT).flatMap (blockOf (List.range n) blockSize nT) = List.range n := by
  have hn0 : (0 : Int) < n := by omega
  have hm0 : (0 : Int) < minBlockSize := by omega
  have hqz : (n : Int) / minBlockSize < 2 ^ 31 - 1 := by
    rw [← Int.natCast_ediv]
    omega
  obtain ⟨⟨bs, k⟩, hp⟩ := Option.isSome_iff_exists.mp (partition_isSome_of_max hn0 hm0 hqz hmax)
  obtain ⟨-, hk, hb, -, hlt⟩ := partition_spec hp
  obtain ⟨nT, rfl⟩ := Int.eq_ofNat_of_zero_le hk.le
  obtain ⟨blockSize, rfl⟩ := Int.eq_ofNat_of_zero_le hb.le
  have hltn : n < (nT + 1) * blockSize := by exact_mod_cast hlt
  refine ⟨blockSize, nT, ?_, by omega, fun tid htid => ⟨?_, ?_⟩, ?_⟩
  · rw [partitionI8_eq hn0 hm0 hqz hfits, hp]
  · exact (blockBounds_spec hp htid).1
  · exact blockBounds_lt (by omega) hltn
  · exact flatMap_blockOf _ _ (by omega)

theorem partitionI8_tiles_ten :
    ∃ blockSize nT : Nat, partitionI8 (10 : Nat) (3 : Nat) 0 = some ((blockSize : Int), (nT : Int)) ∧
      1 ≤ nT ∧
      (∀ tid < nT, (blockBounds 10 blockSize nT tid).1 < (blockBounds 10 blockSize nT tid).2 ∧
        (blockBounds 10 blockSize nT tid).2 - (blockBounds 10 blockSize nT tid).1 < 2 * blockSize) ∧
      (List.range nT).flatMap (blockOf (List.range 10) blockSize nT) = List.range 10 :=
  partitionI8_tiles (n := 10) (by decide) (by decide) (by decide) (.inl le_rfl)
    (lastCheck_lt (by decide) (by decide) (by decide) (by decide))

/-- One chunk of `2 ^ 62` rows: `block_size * (num_chunks + 1)` overflows and the call fails. -/
theorem partitionI8_overflows : partitionI8 ((2 ^ 62 : Nat) : Int) ((2 ^ 62 : Nat) : Int) 0 = none := by
  decide +kernel

end Datacl
