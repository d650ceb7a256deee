import Datacl.Lib.CInt
import Mathlib.Data.Finset.Lattice.Fold
import Mathlib.Data.Rat.Defs

/-!
# The hyperloglog sketch of `approx_unique`

The hash function with its seed is a parameter, and so are the two floating point formulas at
the end of the call. Block boundaries are computed in `int`, as in the source.
-/

namespace Datacl

/-- `BLOCK_SIZE` -/
def blockSize : Nat := 1048576

/-- The number of bins `m` at the start. -/
def initialBins : Nat := 65536

/-- The arguments `x`, `siz` and `cfld` of the call; a missing `cfld` selects everything. -/
structure UniqueInput where
  x : List Int
  cfld : Option (List Int)
  length_cfld : ∀ flags, cfld = some flags → flags.length = x.length

/-- The elements with what the test of `cfld` says of them. -/
def UniqueInput.rows (inp : UniqueInput) : List (Int × Bool) :=
  match inp.cfld with
  | none => inp.x.map fun v => (v, true)
  | some flags => List.zipWith (fun v c => (v, decide (c ≠ 0))) inp.x flags

def selectedRows (rows : List (Int × Bool)) : List Int :=
  (rows.filter Prod.snd).map Prod.fst

/-- The set of selected values. -/
def UniqueInput.selected (inp : UniqueInput) : Finset Int := (selectedRows inp.rows).toFinset

/-! ### `determine_rho_loc` -/

/-- `__builtin_ctzll(hash_val)+1` -/
def rhoOf (hashVal : BitVec 64) : Nat := hashVal.ctz.toNat + 1

/-- The first 20 bits of the hash value, cut to the number of a bin. -/
def locOf (hashVal : BitVec 64) (m : Nat) : Nat := (hashVal >>> 44).toNat % 2 ^ 32 &&& (m - 1)

/-- `(rho, loc)`; `none` is the error exit. -/
def determineRhoLoc (hashVal : BitVec 64) (m : Nat) : Option (Nat × Nat) :=
  if hashVal = 0 then none
  else if 44 < rhoOf hashVal then none
  else some (rhoOf hashVal, locOf hashVal m)

/-! ### Filling the bins -/

/-- The elements between the boundaries `lb` and `ub` of block `c`. -/
def blockRows (rows : List (Int × Bool)) (c : Nat) : List (Int × Bool) :=
  let lb := CInt.wrap 32 (c * blockSize)
  let ub := if (rows.length : Int) < lb + blockSize then (rows.length : Int) else lb + blockSize
  (rows.drop lb.toNat).take (ub - lb).toNat

section

variable (hash : Int → BitVec 64)

/-- The loop over one block. An error holds the bins at the exit with -3. -/
def fillBlock : List (Int × Bool) → List Nat → Except (List Nat) (List Nat)
  | [], maxRho => .ok maxRho
  | (v, sel) :: rows, maxRho =>
    if sel then
      match determineRhoLoc (hash v) initialBins with
      | none => .error maxRho
      | some (r, l) => fillBlock rows (if maxRho.getD l 0 < r then maxRho.set l r else maxRho)
    else fillBlock rows maxRho

/-- The loop over the first `n` blocks. -/
def fillBlocks (rows : List (Int × Bool)) (n : Nat) (maxRho : List Nat) :
    Except (List Nat) (List Nat) :=
  (List.range n).foldlM (fun maxRho c => fillBlock hash (blockRows rows c) maxRho) maxRho

end

def numBlocks (siz : Nat) : Int :=
  let n := CInt.wrap 32 (siz / blockSize)
  if CInt.wrap 32 (n * blockSize) ≠ siz then CInt.wrap 32 (n + 1) else n

/-! ### Merging bins -/

/-- The loop that merges adjacent bins in place; the result holds the last `jj`. -/
def mergePairs (m : Nat) : Nat → Nat → Nat → List Nat → Nat × List Nat
  | 0, _, jj, maxRho => (jj, maxRho)
  | fuel + 1, ii, jj, maxRho =>
    if ii < m then
      mergePairs m fuel (ii + 2) (jj + 1) <| maxRho.set jj <|
        if maxRho.getD (ii + 1) 0 ≤ maxRho.getD ii 0 then maxRho.getD ii 0
        else maxRho.getD (ii + 1) 0
    else (jj, maxRho)

/-- One round of merging, from `m` bins. -/
def mergeBins (bins : Nat × List Nat) : Nat × List Nat := mergePairs bins.1 bins.1 0 0 bins.2

def cntZero (bins : Nat × List Nat) : Nat := (bins.2.take bins.1).countP (fun r => r = 0)

/-- `while ( cnt_zero > m/100 && m > 128 )` -/
def mergeLoop : Nat → Nat × List Nat → Nat × List Nat
  | 0, bins => bins
  | fuel + 1, bins =>
    if bins.1 / 100 < cntZero bins ∧ 128 < bins.1 then mergeLoop fuel (mergeBins bins) else bins

/-! ### The whole call -/

/-- The floating point formulas for `*y` and `*ptr_estimate_accuracy_percent`. -/
structure FinalComputations where
  y : Nat → List Nat → Int
  accuracyPercent : Nat → ℚ

/-- What the call returns, and `m` and `max_rho` as they are when it leaves. -/
structure UniqueResult where
  status : Int
  y : Int
  estimateAccuracyPercent : ℚ
  estimateIsGood : Int
  bins : Option (Nat × List Nat)

/-- The part of `approx_unique` after the bins are filled. -/
def finishBins (final : FinalComputations) (maxRho : List Nat) : UniqueResult :=
  let bins := mergeLoop initialBins (initialBins, maxRho)
  if cntZero bins < bins.1 / 100 then
    ⟨0, final.y bins.1 (bins.2.take bins.1), final.accuracyPercent bins.1, 1, some bins⟩
  else ⟨0, -1, 100, -2, some bins⟩

/-- `approx_unique` -/
def approxUnique (hash : Int → BitVec 64) (final : FinalComputations) (inp : UniqueInput) :
    UniqueResult :=
  if inp.x.length = 0 then ⟨-1, -1, 100, -1, none⟩
  else
    match fillBlocks hash inp.rows (numBlocks inp.x.length).toNat
        (List.replicate initialBins 0) with
    | .error maxRho => ⟨0, -1, 100, -3, some (initialBins, maxRho)⟩
    | .ok maxRho => finishBins final maxRho

end Datacl
