import Datacl.Approx.Unique
import Datacl.Compound.Count
import Mathlib.Tactic

/-!
# Block bounds in `int`

`exec_comp_expr` and `approx_unique` cut the rows into blocks of 2^20 and compute the lower bound
of a block as a product of two `int`. From row 2^31 on the product wraps to a negative number.
-/

namespace Datacl

/-- `(lb, ub)` of every block of the loop of `exec_comp_expr`. -/
def compExprBlocks (nR : Nat) : List (Int × Int) :=
  let n := CInt.wrap 32 (nR / compExprBlockSize)
  let numBlocks := if n = 0 then 1 else n
  (List.range numBlocks.toNat).map fun b : Nat =>
    let lb := CInt.wrap 32 (compExprBlockSize * (b : Int))
    (lb, if (b : Int) = numBlocks - 1 then (nR : Int) else lb + compExprBlockSize)

/-- `(lb, ub)` of block `c` of `approx_unique`. -/
def uniqueBlock (siz c : Nat) : Int × Int :=
  let lb := CInt.wrap 32 (c * blockSize)
  (lb, if (siz : Int) < lb + blockSize then (siz : Int) else lb + blockSize)

/-- `(lb, ub)` of every block of the loop of `approx_unique`. -/
def uniqueBlocks (siz : Nat) : List (Int × Int) :=
  (List.range (numBlocks siz).toNat).map (uniqueBlock siz)

/-! ### Consecutive blocks -/

/-- The blocks are non-empty and follow each other from `lo` to `hi`. -/
inductive Tiles : List (Int × Int) → Int → Int → Prop
  | nil (lo : Int) : Tiles [] lo lo
  | cons {blocks : List (Int × Int)} {lb ub hi : Int} (hlt : lb < ub) (h : Tiles blocks ub hi) :
      Tiles ((lb, ub) :: blocks) lb hi

lemma Tiles.le {blocks : List (Int × Int)} {lo hi : Int} (h : Tiles blocks lo hi) : lo ≤ hi := by
  induction h with
  | nil lo => exact le_rfl
  | cons hlt _ ih => exact hlt.le.trans ih

lemma Tiles.le_of_mem {blocks : List (Int × Int)} {lo hi : Int} (h : Tiles blocks lo hi) :
    ∀ b ∈ blocks, lo ≤ b.1 := by
  induction h with
  | nil lo => simp
  | cons hlt _ ih =>
    rw [List.forall_mem_cons]
    exact ⟨le_rfl, fun c hc => hlt.le.trans (ih c hc)⟩

lemma Tiles.append {as bs : List (Int × Int)} {lo mid hi : Int} (ha : Tiles as lo mid)
    (hb : Tiles bs mid hi) : Tiles (as ++ bs) lo hi := by
  induction ha with
  | nil lo => exact hb
  | cons hlt _ ih => exact .cons hlt (ih hb)

/-- Every row is in exactly one block. -/
lemma Tiles.countP_eq {blocks : List (Int × Int)} {lo hi : Int} (h : Tiles blocks lo hi) (r : Int) :
    blocks.countP (fun b => decide (b.1 ≤ r ∧ r < b.2)) = if lo ≤ r ∧ r < hi then 1 else 0 := by
  induction h with
  | nil lo => rw [List.countP_nil, if_neg (by omega)]
  | cons hlt hrest ih =>
    have hle := hrest.le
    rw [List.countP_cons, ih]
    simp only [decide_eq_true_eq]
    split_ifs <;> omega

/-- Blocks between the consecutive values of an ascending function. -/
lemma tiles_range (f : Nat → Int) (n : Nat) (h : ∀ i < n, f i < f (i + 1)) :
    Tiles ((List.range n).map fun i => (f i, f (i + 1))) (f 0) (f n) := by
  induction n with
  | zero => exact .nil _
  | succ n ih =>
    rw [List.range_succ, List.map_append]
    exact (ih fun i hi => h i (by omega)).append (.cons (h n (by omega)) (.nil _))

/-! ### The bounds of the source -/

lemma wrap_mul_of_lt {z : Int} (h0 : 0 ≤ z) (h : z < 2048) :
    CInt.wrap 32 (1048576 * z) = 1048576 * z := by
  apply CInt.wrap_of_lt (w := 31)
  · omega
  · omega

/-- Block 2048 starts at a negative row. -/
lemma wrap_mul_2048 : CInt.wrap 32 (1048576 * 2048) = -2 ^ 31 := by
  rw [CInt.wrap_of_ge (w := 31)]
  · norm_num
  · norm_num
  · norm_num

/-- The number of blocks of `exec_comp_expr`. -/
def compExprCount (nR : Nat) : Nat := if nR / 1048576 = 0 then 1 else nR / 1048576

lemma compExprBlocks_eq {nR : Nat} (hle : nR ≤ 2 ^ 40) :
    compExprBlocks nR = (List.range (compExprCount nR)).map fun b : Nat =>
      (CInt.wrap 32 (1048576 * (b : Int)), if b + 1 = compExprCount nR then (nR : Int)
        else CInt.wrap 32 (1048576 * (b : Int)) + 1048576) := by
  have hn : CInt.wrap 32 ((nR : Int) / compExprBlockSize) = (nR / 1048576 : Nat) := by
    rw [compExprBlockSize, ← Nat.cast_ofNat, ← Int.natCast_ediv]
    apply CInt.wrap_of_lt (w := 31)
    · omega
    · omega
  have hcount : (if CInt.wrap 32 ((nR : Int) / compExprBlockSize) = 0 then 1
      else CInt.wrap 32 ((nR : Int) / compExprBlockSize)) = (compExprCount nR : Int) := by
    rw [hn, compExprCount]
    split_ifs <;> omega
  simp only [compExprBlocks, hcount, Int.toNat_natCast]
  apply List.map_congr_left
  intro b _
  have hlast : ((b : Int) = (compExprCount nR : Int) - 1) ↔ b + 1 = compExprCount nR := by omega
  simp only [hlast]
  rfl

lemma compExprBlocks_tiles {nR : Nat} (hpos : 1 ≤ nR) (hlt : nR < 2 ^ 31 + 2 ^ 20) :
    Tiles (compExprBlocks nR) 0 nR := by
  have hcount : compExprCount nR ≤ 2048 := by
    rw [compExprCount]
    split_ifs <;> omega
  have hpos' : 0 < compExprCount nR := by
    rw [compExprCount]
    split_ifs <;> omega
  have hlast : 1048576 * (compExprCount nR - 1) < nR := by
    rw [compExprCount]
    split_ifs <;> omega
  let f : Nat → Int := fun i => if i = compExprCount nR then (nR : Int) else 1048576 * i
  have hf : ∀ i < compExprCount nR, f i < f (i + 1) := by
    intro i hi
    simp only [f, if_neg hi.ne]
    split_ifs <;> omega
  have hblocks : compExprBlocks nR =
      (List.range (compExprCount nR)).map fun i => (f i, f (i + 1)) := by
    rw [compExprBlocks_eq (by omega)]
    apply List.map_congr_left
    intro b hb
    have hb' := List.mem_range.mp hb
    rw [wrap_mul_of_lt (by omega) (by omega)]
    simp only [f, if_neg hb'.ne]
    split_ifs <;> apply Prod.ext <;> push_cast <;> ring
  have hzero : f 0 = 0 := if_neg hpos'.ne
  have hend : f (compExprCount nR) = nR := if_pos rfl
  have htiles := tiles_range f _ hf
  rwa [← hblocks, hzero, hend] at htiles

lemma compExprBlocks_not_tiles {nR : Nat} (hge : 2 ^ 31 + 2 ^ 20 ≤ nR) (hle : nR ≤ 2 ^ 40) :
    ¬ Tiles (compExprBlocks nR) 0 nR := by
  have hcount : 2048 < compExprCount nR := by
    rw [compExprCount]
    split_ifs <;> omega
  rw [compExprBlocks_eq hle]
  apply mt Tiles.le_of_mem
  push Not
  refine ⟨_, List.mem_map_of_mem (List.mem_range.mpr hcount), ?_⟩
  simp only [Nat.cast_ofNat, wrap_mul_2048]
  norm_num

/-! ### `approx_unique` -/

lemma wrap_siz_div {siz : Nat} (hle : siz ≤ 2 ^ 40) :
    CInt.wrap 32 ((siz : Int) / blockSize) = (siz / 1048576 : Nat) := by
  rw [blockSize, ← Nat.cast_ofNat, ← Int.natCast_ediv]
  apply CInt.wrap_of_lt (w := 31)
  · omega
  · omega

lemma wrap_count_succ {n : Nat} (hle : n ≤ 1048576) :
    CInt.wrap 32 ((n : Int) + 1) = (n + 1 : Nat) := by
  push_cast
  apply CInt.wrap_of_lt (w := 31)
  · omega
  · omega

lemma wrap_unique_of_lt {c : Nat} (h : c < 2048) :
    CInt.wrap 32 ((c : Int) * blockSize) = 1048576 * c := by
  rw [blockSize, Int.mul_comm]
  exact wrap_mul_of_lt (by omega) (by omega)

lemma wrap_unique_2048 : CInt.wrap 32 (((2048 : Nat) : Int) * blockSize) = -2 ^ 31 := by
  rw [blockSize, Int.mul_comm]
  exact wrap_mul_2048

lemma numBlocks_eq {siz : Nat} (hlt : siz < 2 ^ 31) :
    numBlocks siz = ((siz + 1048575) / 1048576 : Nat) := by
  have hmul : CInt.wrap 32 (((siz / 1048576 : Nat) : Int) * blockSize) =
      (siz / 1048576 * 1048576 : Nat) := by
    rw [blockSize, ← Nat.cast_mul]
    apply CInt.wrap_of_lt (w := 31)
    · omega
    · omega
  simp only [numBlocks, wrap_siz_div (by omega : siz ≤ 2 ^ 40), hmul, ne_eq, Nat.cast_inj]
  rw [wrap_count_succ (by omega)]
  split_ifs
  · rw [Nat.cast_inj]
    omega
  · rw [Nat.cast_inj]
    omega

/-- From 2^31 rows on there is a block 2048. -/
lemma lt_numBlocks {siz : Nat} (hge : 2 ^ 31 ≤ siz) (hle : siz ≤ 2 ^ 40) : 2048 < numBlocks siz := by
  simp only [numBlocks, wrap_siz_div hle]
  rw [wrap_count_succ (by omega)]
  split_ifs with heq
  · omega
  · rcases Nat.lt_or_ge 2048 (siz / 1048576) with hlt | hge'
    · exact_mod_cast hlt
    · have hn : siz / 1048576 = 2048 := by omega
      rw [hn, wrap_unique_2048] at heq
      omega

lemma uniqueBlocks_tiles {nR : Nat} (hpos : 1 ≤ nR) (hlt : nR < 2 ^ 31) :
    Tiles (uniqueBlocks nR) 0 nR := by
  have hcount : (numBlocks nR).toNat = (nR + 1048575) / 1048576 := by
    rw [numBlocks_eq hlt, Int.toNat_natCast]
  let f : Nat → Int := fun i => if i = (nR + 1048575) / 1048576 then (nR : Int) else 1048576 * i
  have hf : ∀ i < (nR + 1048575) / 1048576, f i < f (i + 1) := by
    intro i hi
    simp only [f, if_neg hi.ne]
    split_ifs <;> omega
  have hblocks : uniqueBlocks nR =
      (List.range ((nR + 1048575) / 1048576)).map fun i => (f i, f (i + 1)) := by
    rw [uniqueBlocks, hcount]
    apply List.map_congr_left
    intro c hc
    have hc' := List.mem_range.mp hc
    have hbs : (blockSize : Int) = 1048576 := rfl
    simp only [uniqueBlock, wrap_unique_of_lt (by omega : c < 2048)]
    simp only [hbs, f, if_neg hc'.ne, Prod.mk.injEq, true_and]
    split_ifs <;> omega
  have hzero : f 0 = 0 := if_neg (by omega)
  have hend : f ((nR + 1048575) / 1048576) = nR := if_pos rfl
  have htiles := tiles_range f _ hf
  rwa [← hblocks, hzero, hend] at htiles

lemma uniqueBlocks_not_tiles {nR : Nat} (hge : 2 ^ 31 ≤ nR) (hle : nR ≤ 2 ^ 40) :
    ¬ Tiles (uniqueBlocks nR) 0 nR := by
  have hcount := lt_numBlocks hge hle
  rw [uniqueBlocks]
  apply mt Tiles.le_of_mem
  push Not
  refine ⟨_, List.mem_map_of_mem (List.mem_range.mpr (by omega : 2048 < (numBlocks nR).toNat)), ?_⟩
  simp only [uniqueBlock, wrap_unique_2048]
  norm_num

/-! ### Both functions -/

lemma compExprBlocks_tiles_iff {nR : Nat} (hpos : 1 ≤ nR) (hle : nR ≤ 2 ^ 40) :
    Tiles (compExprBlocks nR) 0 nR ↔ nR < 2 ^ 31 + 2 ^ 20 := by
  rcases Nat.lt_or_ge nR (2 ^ 31 + 2 ^ 20) with hlt | hge
  · exact iff_of_true (compExprBlocks_tiles hpos hlt) hlt
  · exact iff_of_false (compExprBlocks_not_tiles hge hle) (not_lt.mpr hge)

lemma uniqueBlocks_tiles_iff {nR : Nat} (hpos : 1 ≤ nR) (hle : nR ≤ 2 ^ 40) :
    Tiles (uniqueBlocks nR) 0 nR ↔ nR < 2 ^ 31 := by
  rcases Nat.lt_or_ge nR (2 ^ 31) with hlt | hge
  · exact iff_of_true (uniqueBlocks_tiles hpos hlt) hlt
  · exact iff_of_false (uniqueBlocks_not_tiles hge hle) (not_lt.mpr hge)

/-- The blocks of both functions cover the rows exactly once up to 2^31 rows, and not from there
on; `exec_comp_expr`, whose last block takes the remainder, is right for one more block. -/
theorem blocks_cover_iff (nR : Nat) (hpos : 1 ≤ nR) (hle : nR ≤ 2 ^ 40) :
    (Tiles (compExprBlocks nR) 0 nR ∧ Tiles (uniqueBlocks nR) 0 nR ↔ nR < 2 ^ 31) ∧
      (Tiles (compExprBlocks nR) 0 nR ↔ nR < 2 ^ 31 + 2 ^ 20) ∧
      (Tiles (uniqueBlocks nR) 0 nR ↔ nR < 2 ^ 31) := by
  rw [compExprBlocks_tiles_iff hpos hle, uniqueBlocks_tiles_iff hpos hle]
  exact ⟨⟨And.right, fun h => ⟨by omega, h⟩⟩, Iff.rfl, Iff.rfl⟩

theorem blocks_cover_iff_thousand :
    (Tiles (compExprBlocks 1000) 0 (1000 : Nat) ∧ Tiles (uniqueBlocks 1000) 0 (1000 : Nat) ↔
        1000 < 2 ^ 31) ∧
      (Tiles (compExprBlocks 1000) 0 (1000 : Nat) ↔ 1000 < 2 ^ 31 + 2 ^ 20) ∧
      (Tiles (uniqueBlocks 1000) 0 (1000 : Nat) ↔ 1000 < 2 ^ 31) :=
  blocks_cover_iff 1000 (by norm_num) (by norm_num)

/-- With 2^31 + 2^20 rows block 2048 starts at row -2^31 in both functions. -/
theorem blocks_miss_rows :
    ¬ Tiles (compExprBlocks (2 ^ 31 + 2 ^ 20)) 0 ((2 ^ 31 + 2 ^ 20 : Nat) : Int) ∧
      ¬ Tiles (uniqueBlocks (2 ^ 31 + 2 ^ 20)) 0 ((2 ^ 31 + 2 ^ 20 : Nat) : Int) :=
  ⟨compExprBlocks_not_tiles le_rfl (by norm_num),
    uniqueBlocks_not_tiles (by norm_num) (by norm_num)⟩

end Datacl
