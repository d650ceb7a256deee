import Datacl.Vec.BitSum
import Datacl.Vec.MultScalar
import Mathlib.Data.List.GetD

/-!
# Operations on one column

`vec_f1opf2` applies an operation to the rows of a block, for which it advances a pointer of each
type to the first row of the block.
-/

namespace Datacl

/-- The operations `!`, `~`, `++`, `--`, `hash` and `bitcount`. -/
inductive UnOp where
  | not
  | onesComplement
  | incr
  | decr
  | hash
  | bitcount
  deriving DecidableEq

/-- The operations that `vec_f1opf2` has for a type. -/
def UnOp.Accepts (op : UnOp) : IntType → Bool
  | .I1 => op = .not ∨ op = .onesComplement
  | .I2 => false
  | .I4 => true
  | .I8 => true

/-- The seed of `vec_f1opf2`. -/
def seedUI8 : Nat := 0

/-- The operation on one row. The hash function gets the width, the bits of the value and the
seed. -/
def UnOp.row (hash : (w : Nat) → BitVec w → Nat → Int) (t : IntType) (x : Int) : UnOp → Int
  | .not => if x = 0 then 1 else 0
  | .onesComplement => CInt.wrap t.bits (-x - 1)
  | .incr => CInt.wrap t.bits (x + 1)
  | .decr => CInt.wrap t.bits (x - 1)
  | .hash => hash t.bits (BitVec.ofInt t.bits x) seedUI8
  | .bitcount => popcount (BitVec.ofInt t.bits x)

/-- The number of rows treated in a block: `not_I1` and the others that are generated from
`tmpl_unary_op` and `tmpl_incr` take it as an `int`. -/
def UnOp.count (op : UnOp) (nX : Nat) : Nat :=
  match op with
  | .hash | .bitcount => nX
  | _ => (CInt.wrap 32 nX).toNat

/-- The first row that is read for a block. The pointer `f1UI8` is not advanced. -/
def UnOp.firstRow (op : UnOp) (t : IntType) (lb : Nat) : Nat :=
  match t, op with
  | .I8, .hash | .I8, .bitcount => 0
  | _, _ => lb

/-- What block `tid` leaves in its part of the output, which held `f2X` before. -/
def unBlock (hash : (w : Nat) → BitVec w → Nat → Int) (t : IntType) (op : UnOp) (f1X f2X : List Int)
    (blockSize nT tid : Nat) : List Int :=
  let (lb, ub) := blockBounds f1X.length blockSize nT tid
  let n := op.count (ub - lb)
  ((f1X.drop (op.firstRow t lb)).take n).map (fun x => op.row hash t x) ++
    (f2X.drop (lb + n)).take (ub - lb - n)

/-- `vec_f1opf2`: the output and its null column. -/
def vecF1opf2 (hash : (w : Nat) → BitVec w → Nat → Int) (t : IntType) (op : UnOp)
    (f1X : List Int) (nnF1X : Option (List Int)) (f2X : List Int) :
    Option (List Int × Option (List Int)) :=
  match partition f1X.length 1024 (-1) with
  | none => none
  | some (blockSize, nT) =>
    if op.Accepts t then
      some ((List.range nT.toNat).flatMap (unBlock hash t op f1X f2X blockSize.toNat nT.toNat),
        nnF1X.map fun nn =>
          (List.range nT.toNat).flatMap (blockOf nn blockSize.toNat nT.toNat))
    else none

/-! ### The rows of a block -/

section

variable {hash : (w : Nat) → BitVec w → Nat → Int} {t : IntType} {op : UnOp} {f1X f2X : List Int}

lemma UnOp.count_le (op : UnOp) (nX : Nat) : op.count nX ≤ nX := by
  have hwrap : (CInt.wrap 32 nX).toNat ≤ nX := by
    unfold CInt.wrap
    rw [Int.bmod_def]
    split_ifs <;> omega
  cases op
  case hash => exact le_rfl
  case bitcount => exact le_rfl
  all_goals exact hwrap

lemma UnOp.firstRow_le (op : UnOp) (t : IntType) (lb : Nat) : op.firstRow t lb ≤ lb := by
  unfold UnOp.firstRow
  split
  · exact Nat.zero_le lb
  · exact Nat.zero_le lb
  · exact le_rfl

/-- Row `j` of block `tid` is what the operation gives for the row of the column. -/
def UnOp.RowRight (hash : (w : Nat) → BitVec w → Nat → Int) (t : IntType) (op : UnOp)
    (f1X f2X : List Int) (blockSize nT tid j : Nat) : Prop :=
  let (lb, ub) := blockBounds f1X.length blockSize nT tid
  op.row hash t (f1X.getD (lb + j) 0) =
    if j < op.count (ub - lb) then op.row hash t (f1X.getD (op.firstRow t lb + j) 0)
    else f2X.getD (lb + j) 0

instance (blockSize nT tid j : Nat) :
    Decidable (UnOp.RowRight hash t op f1X f2X blockSize nT tid j) :=
  inferInstanceAs (Decidable (_ = _))

lemma flatMap_eq_iff {α : Type} {n : Nat} {f g : Nat → List α}
    (hlen : ∀ i < n, (f i).length = (g i).length) :
    (List.range n).flatMap f = (List.range n).flatMap g ↔ ∀ i < n, f i = g i := by
  induction n with
  | zero => simp
  | succ n ih =>
    have hfirst : ((List.range n).flatMap f).length = ((List.range n).flatMap g).length := by
      rw [List.length_flatMap, List.length_flatMap]
      congr 1
      exact List.map_congr_left fun i hi => hlen i (by simp at hi; omega)
    rw [List.range_succ, List.flatMap_append, List.flatMap_append, List.flatMap_singleton,
      List.flatMap_singleton]
    constructor
    · intro h i hi
      obtain ⟨h1, h2⟩ := List.append_inj h hfirst
      rcases Nat.lt_succ_iff_lt_or_eq.mp hi with hlt | rfl
      · exact (ih fun i hi => hlen i (by omega)).mp h1 i hlt
      · exact h2
    · intro h
      rw [(ih fun i hi => hlen i (by omega)).mpr fun i hi => h i (by omega), h n (by omega)]

lemma eq_iff_getD {xs ys : List Int} (hlen : xs.length = ys.length) :
    xs = ys ↔ ∀ j < ys.length, xs.getD j 0 = ys.getD j 0 := by
  constructor
  · rintro rfl j _
    rfl
  · intro h
    refine List.ext_getElem hlen fun j hx hy => ?_
    have hj := h j hy
    rwa [List.getD_eq_getElem _ _ hx, List.getD_eq_getElem _ _ hy] at hj

lemma length_unBlock {blockSize nT tid : Nat} (hlen : f2X.length = f1X.length)
    (hub : (blockBounds f1X.length blockSize nT tid).2 ≤ f1X.length) :
    (unBlock hash t op f1X f2X blockSize nT tid).length =
      (blockBounds f1X.length blockSize nT tid).2 - (blockBounds f1X.length blockSize nT tid).1 := by
  unfold unBlock
  generalize blockBounds f1X.length blockSize nT tid = bounds at hub
  obtain ⟨lb, ub⟩ := bounds
  have hcount := op.count_le (ub - lb)
  have hfirst := op.firstRow_le t lb
  dsimp only at hub ⊢
  simp only [List.length_append, List.length_map, List.length_take, List.length_drop]
  omega

lemma getD_unBlock {blockSize nT tid j : Nat}
    (hub : (blockBounds f1X.length blockSize nT tid).2 ≤ f1X.length)
    (hj : j < (blockBounds f1X.length blockSize nT tid).2 -
      (blockBounds f1X.length blockSize nT tid).1) :
    (unBlock hash t op f1X f2X blockSize nT tid).getD j 0 =
      if j < op.count ((blockBounds f1X.length blockSize nT tid).2 -
          (blockBounds f1X.length blockSize nT tid).1) then
        op.row hash t
          (f1X.getD (op.firstRow t (blockBounds f1X.length blockSize nT tid).1 + j) 0)
      else f2X.getD ((blockBounds f1X.length blockSize nT tid).1 + j) 0 := by
  unfold unBlock
  generalize blockBounds f1X.length blockSize nT tid = bounds at hub hj
  obtain ⟨lb, ub⟩ := bounds
  have hcount := op.count_le (ub - lb)
  have hfirst := op.firstRow_le t lb
  dsimp only at hub hj ⊢
  have hlen : (((f1X.drop (op.firstRow t lb)).take (op.count (ub - lb))).map
      fun x => op.row hash t x).length = op.count (ub - lb) := by
    simp only [List.length_map, List.length_take, List.length_drop]
    omega
  simp only [List.getD_eq_getElem?_getD]
  split_ifs with hlt
  · have hget : op.firstRow t lb + j < f1X.length := by omega
    rw [List.getElem?_append_left (by omega), List.getElem?_map, List.getElem?_take_of_lt hlt,
      List.getElem?_drop, List.getElem?_eq_getElem hget]
    rfl
  · have hrest : lb + op.count (ub - lb) + (j - op.count (ub - lb)) = lb + j := by omega
    rw [List.getElem?_append_right (by omega), hlen, List.getElem?_take_of_lt (by omega),
      List.getElem?_drop, hrest]

lemma getD_map_blockOf {blockSize nT tid j : Nat}
    (hub : (blockBounds f1X.length blockSize nT tid).2 ≤ f1X.length)
    (hj : j < (blockBounds f1X.length blockSize nT tid).2 -
      (blockBounds f1X.length blockSize nT tid).1) :
    ((blockOf f1X blockSize nT tid).map fun x => op.row hash t x).getD j 0 =
      op.row hash t (f1X.getD ((blockBounds f1X.length blockSize nT tid).1 + j) 0) := by
  unfold blockOf
  generalize blockBounds f1X.length blockSize nT tid = bounds at hub hj
  obtain ⟨lb, ub⟩ := bounds
  dsimp only at hub hj ⊢
  have hget : lb + j < f1X.length := by omega
  rw [List.getD_eq_getElem?_getD, List.getD_eq_getElem?_getD, List.getElem?_map,
    List.getElem?_take_of_lt hj, List.getElem?_drop, List.getElem?_eq_getElem hget]
  rfl

/-- The output is the operation on each row if and only if it is on each row of each block. -/
lemma vecF1opf2_eq_iff {nnF1X : Option (List Int)} {blockSize nT : Int}
    (hlen : f2X.length = f1X.length) (hacc : op.Accepts t = true)
    (hp : partition f1X.length 1024 (-1) = some (blockSize, nT)) :
    vecF1opf2 hash t op f1X nnF1X f2X = some (f1X.map (fun x => op.row hash t x), nnF1X) ↔
      ∀ tid < nT.toNat, ∀ j < (blockBounds f1X.length blockSize.toNat nT.toNat tid).2 -
        (blockBounds f1X.length blockSize.toNat nT.toNat tid).1,
          op.RowRight hash t f1X f2X blockSize.toNat nT.toNat tid j := by
  obtain ⟨-, hn, -⟩ := partition_spec hp
  have hnn : nnF1X.map (fun nn => (List.range nT.toNat).flatMap
      (blockOf nn blockSize.toNat nT.toNat)) = nnF1X := by
    cases nnF1X with
    | none => rfl
    | some nn => exact congrArg some (flatMap_blockOf nn blockSize.toNat (by omega))
  have hcol : f1X.map (fun x => op.row hash t x) = (List.range nT.toNat).flatMap fun tid =>
      (blockOf f1X blockSize.toNat nT.toNat tid).map fun x => op.row hash t x := by
    rw [← List.map_flatMap, flatMap_blockOf f1X blockSize.toNat (by omega)]
  have hblock : ∀ tid < nT.toNat,
      ((blockOf f1X blockSize.toNat nT.toNat tid).map fun x => op.row hash t x).length =
        (blockBounds f1X.length blockSize.toNat nT.toNat tid).2 -
          (blockBounds f1X.length blockSize.toNat nT.toNat tid).1 := by
    intro tid htid
    have hub := (blockBounds_spec hp htid).2
    simp only [blockOf, List.length_map, List.length_take, List.length_drop]
    omega
  have hsame : ∀ tid < nT.toNat,
      (unBlock hash t op f1X f2X blockSize.toNat nT.toNat tid).length =
        ((blockOf f1X blockSize.toNat nT.toNat tid).map fun x => op.row hash t x).length :=
    fun tid htid => (length_unBlock hlen (blockBounds_spec hp htid).2).trans (hblock tid htid).symm
  unfold vecF1opf2
  rw [hp]
  dsimp only
  rw [if_pos hacc, hnn, hcol, Option.some_inj, Prod.mk.injEq, and_iff_left rfl, flatMap_eq_iff hsame]
  refine forall₂_congr fun tid htid => ?_
  have hub := (blockBounds_spec hp htid).2
  rw [eq_iff_getD (hsame tid htid), hblock tid htid]
  refine forall₂_congr fun j hj => ?_
  rw [getD_unBlock hub hj, getD_map_blockOf hub hj]
  exact eq_comm

end

/-- The rows are treated one by one if and only if there are blocks and each row of each block is
right. -/
theorem vecF1opf2_rowwise_iff {hash : (w : Nat) → BitVec w → Nat → Int} {t : IntType} {op : UnOp}
    {f1X f2X : List Int} {nnF1X : Option (List Int)} (hlen : f2X.length = f1X.length)
    (hacc : op.Accepts t = true) :
    vecF1opf2 hash t op f1X nnF1X f2X = some (f1X.map (fun x => op.row hash t x), nnF1X) ↔
      ∃ blockSize nT, partition f1X.length 1024 (-1) = some (blockSize, nT) ∧
        ∀ tid < nT.toNat, ∀ j < (blockBounds f1X.length blockSize.toNat nT.toNat tid).2 -
          (blockBounds f1X.length blockSize.toNat nT.toNat tid).1,
            op.RowRight hash t f1X f2X blockSize.toNat nT.toNat tid j := by
  cases hp : partition f1X.length 1024 (-1) with
  | none =>
    refine iff_of_false ?_ (by simp)
    intro h
    unfold vecF1opf2 at h
    rw [hp] at h
    cases h
  | some p =>
    obtain ⟨blockSize, nT⟩ := p
    rw [vecF1opf2_eq_iff hlen hacc hp]
    constructor
    · exact fun h => ⟨blockSize, nT, rfl, h⟩
    · rintro ⟨_, _, heq, h⟩
      obtain ⟨rfl, rfl⟩ := Prod.mk.inj (Option.some.inj heq)
      exact h

theorem vecF1opf2_rowwise_one_block :
    vecF1opf2 (fun _ _ _ => 0) .I8 .bitcount [5, 7] (some [1, 0]) [0, 0] =
      some (([5, 7] : List Int).map (fun x => UnOp.bitcount.row (fun _ _ _ => 0) .I8 x),
        some [1, 0]) := by
  rw [vecF1opf2_rowwise_iff (by rfl) (by rfl)]
  exact ⟨2, 1, rfl, by decide⟩

/-- A column of two blocks. -/
def zerosThenOnes : List Int := List.replicate 1024 0 ++ List.replicate 1024 1

/-- The bits of the second block are counted in the first one. -/
theorem vecF1opf2_bitcount_two_blocks :
    vecF1opf2 (fun _ _ _ => 0) .I8 .bitcount zerosThenOnes none (List.replicate 2048 0) ≠
      some (zerosThenOnes.map (fun x => UnOp.bitcount.row (fun _ _ _ => 0) .I8 x), none) := by
  have hlen : zerosThenOnes.length = 2048 := by
    rw [zerosThenOnes, List.length_append, List.length_replicate, List.length_replicate]
  have hsecond : zerosThenOnes.getD 1024 0 = 1 := by
    rw [zerosThenOnes, List.getD_append_right _ _ _ _ List.length_replicate.le,
      List.length_replicate]
    rfl
  have hp : partition zerosThenOnes.length 1024 (-1) = some (1024, 2) := by
    rw [hlen]
    rfl
  intro h
  have hrow := (vecF1opf2_eq_iff (List.length_replicate.trans hlen.symm) rfl hp).mp h 1 (by decide) 0
    (by rw [hlen]; decide)
  unfold UnOp.RowRight at hrow
  rw [hlen] at hrow
  have hcell : UnOp.bitcount.row (fun _ _ _ => 0) .I8 (zerosThenOnes.getD 1024 0) =
      UnOp.bitcount.row (fun _ _ _ => 0) .I8 (zerosThenOnes.getD 0 0) := hrow
  rw [hsecond] at hcell
  revert hcell
  decide

end Datacl
