import Datacl.Lib.Words
import Datacl.Vec.Partition

/-!
# Columns of bits

A `B` column holds eight rows to a byte. `vec_f1f2opf3` treats it by words of 64 rows.
-/

namespace Datacl

open Words

/-! ### Packing -/

/-- The inner loop of `conv_I1_to_B`, from `j` on. -/
def packLoop : Nat → BitVec 32 → List Byte → BitVec 32
  | _, uiy, [] => uiy
  | j, uiy, x :: xs => packLoop (j + 1) (uiy ||| (x.signExtend 32 <<< j)) xs

def packByte (xs : List Byte) : Byte := (packLoop 0 0 xs).setWidth 8

/-- `conv_I1_to_B` -/
def convI1toB (X : List Byte) : Option (List Byte) :=
  let nX := X.length
  let n := nX / 8 * 8
  let Y := (List.range (nX / 8)).map (fun k => packByte ((X.drop (8 * k)).take 8)) ++
    if n < nX then [packByte (X.drop n)] else []
  let chkYindex := if n ≠ nX then nX / 8 + 1 else nX / 8
  if Y.length ≠ chkYindex then none else some Y

/-- The inner loop of `conv_B_to_I1` for the given number of bits. -/
def unpackByte : Nat → Byte → List Byte
  | 0, _ => []
  | n + 1, uix => (if uix &&& 1 = 1 then 1 else 0) :: unpackByte n (uix >>> 1)

/-- `conv_B_to_I1` -/
def convBtoI1 (X : List Byte) (nX : Nat) : Option (List Byte) :=
  let Y := ((List.range (nX / 8)).flatMap fun k => unpackByte 8 (X.getD k 0)) ++
    unpackByte (nX - nX / 8 * 8) (X.getD (nX / 8) 0)
  if Y.length ≠ nX then none else some Y

/-! ### Operators -/

/-- The operators of `vec_f1f2opf3` on type `B`. -/
inductive BitOp where
  | or
  | and
  | andNot
  deriving DecidableEq

/-- `bwise_or2_I8`, `bwise_and2_I8` and `bwise_a_and_not_b_I8` on one word. -/
def BitOp.onWord : BitOp → BitVec 64 → BitVec 64 → BitVec 64
  | .or, a, b => a ||| b
  | .and, a, b => a &&& b
  | .andNot, a, b => a &&& ~~~b

/-- `or2_I1`, `and2_I1` and `a_and_not_b_I1` on one row. -/
def BitOp.onI1 : BitOp → Byte → Byte → Byte
  | .or, a, b => if a ≠ 0 ∨ b ≠ 0 then 1 else 0
  | .and, a, b => if a ≠ 0 ∧ b ≠ 0 then 1 else 0
  | .andNot, a, b => a &&& ~~~b

/-- The loop over `nWords` words from word `first` on. -/
def bwiseLoop (op : BitOp) (f1X f2X : List Byte) (first nWords : Nat) (opX : List Byte) : List Byte :=
  (List.range nWords).foldl (fun opX i =>
    store opX (first + i) (op.onWord (load f1X (first + i)) (load f2X (first + i)))) opX

/-- Block `tid` of `vec_f1f2opf3` on type `B`; it wants to begin with a whole word. -/
def bitBlock (op : BitOp) (f1X f2X : List Byte) (nR blockSize nT : Nat) (opX : List Byte)
    (tid : Nat) : Option (List Byte) :=
  let (lb, ub) := blockBounds nR blockSize nT tid
  if lb / 64 * 64 ≠ lb then none
  else some (bwiseLoop op f1X f2X (lb / 64) ((ub - lb) / 64) opX)

/-- `vec_f1f2opf3` on type `B` without null columns. -/
def vecF1f2opf3B (nR : Nat) (f1X f2X : List Byte) (op : BitOp) (opX : List Byte) :
    Option (List Byte) := do
  let (blockSize, nT) ← partition nR 4096 (-1)
  (List.range nT.toNat).foldlM (bitBlock op f1X f2X nR blockSize.toNat nT.toNat) opX

/-- The operator by way of bit columns. The result goes to the buffer `opX`. -/
def viaBits (op : BitOp) (f1X f2X opX : List Byte) : Option (List Byte) := do
  let b1 ← convI1toB f1X
  let b2 ← convI1toB f2X
  let b3 ← vecF1f2opf3B f1X.length b1 b2 op opX
  convBtoI1 b3 f1X.length

/-! ### Packing keeps the rows -/

/-- A column of `0` and `1`. -/
def IsFlags (X : List Byte) : Prop := ∀ x ∈ X, x = 0 ∨ x = 1

lemma getLsbD_shifted_flag {x : Byte} (hx : x = 0 ∨ x = 1) (i j : Nat) :
    (x.signExtend 32 <<< j).getLsbD i = (decide (i < 32) && decide (i = j) && decide (x = 1)) := by
  rw [BitVec.getLsbD_shiftLeft]
  rcases hx with rfl | rfl
  · simp
  · have hone : (1 : Byte).signExtend 32 = 1#32 := by decide
    rw [hone, BitVec.getLsbD_one]
    by_cases hij : i = j
    · simp [hij]
    · by_cases hlt : i < j
      · simp [hij, hlt]
      · have hsub : ¬ i - j = 0 := by omega
        simp [hij, hsub]

lemma getLsbD_packLoop {xs : List Byte} (hx : IsFlags xs) (j : Nat) (uiy : BitVec 32) {i : Nat}
    (hi : i < 32) :
    (packLoop j uiy xs).getLsbD i =
      (uiy.getLsbD i || (decide (j ≤ i) && decide (xs.getD (i - j) 0 = 1))) := by
  induction xs generalizing j uiy with
  | nil => simp [packLoop]
  | cons x xs ih =>
    obtain ⟨hx, hxs⟩ := List.forall_mem_cons.mp hx
    rw [packLoop, ih hxs, BitVec.getLsbD_or, getLsbD_shifted_flag hx, Bool.or_assoc]
    congr 1
    by_cases hij : i = j
    · subst hij
      simp [hi]
    · by_cases hlt : j + 1 ≤ i
      · obtain ⟨k, rfl⟩ : ∃ k, i = j + 1 + k := ⟨i - (j + 1), by omega⟩
        have hsub : j + 1 + k - j = k + 1 := by omega
        have hne : ¬ j + 1 + k = j := by omega
        have hle : j ≤ j + 1 + k := by omega
        simp [hsub, hne, hle]
      · have hle : ¬ j ≤ i := by omega
        simp [hij, hlt, hle]

lemma getLsbD_packByte {xs : List Byte} (hx : IsFlags xs) {i : Nat} (hi : i < 8) :
    (packByte xs).getLsbD i = decide (xs.getD i 0 = 1) := by
  rw [packByte, BitVec.getLsbD_setWidth, getLsbD_packLoop hx 0 0 (by omega)]
  simp [hi]

lemma IsFlags.drop {X : List Byte} (hX : IsFlags X) (n : Nat) : IsFlags (X.drop n) :=
  fun x hx => hX x (List.mem_of_mem_drop hx)

lemma IsFlags.take {X : List Byte} (hX : IsFlags X) (n : Nat) : IsFlags (X.take n) :=
  fun x hx => hX x (List.mem_of_mem_take hx)

/-- The bytes that `conv_I1_to_B` writes. -/
def packed (X : List Byte) : List Byte :=
  (List.range (X.length / 8)).map (fun k => packByte ((X.drop (8 * k)).take 8)) ++
    if X.length / 8 * 8 < X.length then [packByte (X.drop (X.length / 8 * 8))] else []

lemma convI1toB_eq (X : List Byte) : convI1toB X = some (packed X) := by
  have hlen : (packed X).length =
      if X.length / 8 * 8 ≠ X.length then X.length / 8 + 1 else X.length / 8 := by
    rw [packed]
    split_ifs <;> simp <;> omega
  exact if_neg (not_not.mpr hlen)

lemma bitAt_packed {X : List Byte} (hX : IsFlags X) {i : Nat} (hi : i < X.length) :
    bitAt (packed X) i = decide (X.getD i 0 = 1) := by
  have hbit : i % 8 < 8 := Nat.mod_lt _ (by omega)
  have hmod : 8 * (i / 8) + i % 8 = i := Nat.div_add_mod i 8
  rw [bitAt, packed, List.getD_eq_getElem?_getD]
  by_cases hk : i / 8 < X.length / 8
  · rw [List.getElem?_append_left (by simpa using hk), List.getElem?_map,
      List.getElem?_range hk, Option.map_some, Option.getD_some,
      getLsbD_packByte ((hX.drop _).take _) hbit, List.getD_eq_getElem?_getD,
      List.getElem?_take_of_lt hbit, List.getElem?_drop, hmod, ← List.getD_eq_getElem?_getD]
  · have hlast : i / 8 = X.length / 8 := by omega
    have hrest : X.length / 8 * 8 < X.length := by omega
    have hidx : X.length / 8 * 8 + i % 8 = i := by omega
    rw [List.getElem?_append_right (by simp; omega), if_pos hrest, List.length_map,
      List.length_range, hlast, Nat.sub_self, List.getElem?_cons_zero, Option.getD_some,
      getLsbD_packByte (hX.drop _) hbit, List.getD_eq_getElem?_getD, List.getElem?_drop, hidx,
      ← List.getD_eq_getElem?_getD]

/-! ### Unpacking reads the rows -/

/-- The row that a bit stands for. -/
def flagOf (b : Bool) : Byte := if b then 1 else 0

lemma unpackByte_eq (n : Nat) (uix : Byte) :
    unpackByte n uix = (List.range n).map fun j => flagOf (uix.getLsbD j) := by
  induction n generalizing uix with
  | zero => rfl
  | succ n ih =>
    have hfirst : (if uix &&& 1 = 1 then (1 : Byte) else 0) = flagOf (uix.getLsbD 0) := by
      revert uix
      decide
    rw [unpackByte, ih, List.range_succ_eq_map, List.map_cons, List.map_map, hfirst]
    congr 1
    refine List.map_congr_left fun j _ => ?_
    rw [Function.comp_apply, BitVec.getLsbD_ushiftRight, Nat.add_comm]

lemma unpackByte_getD {n : Nat} (X : List Byte) (k : Nat) (hn : n ≤ 8) :
    unpackByte n (X.getD k 0) = (List.range n).map fun j => flagOf (bitAt X (8 * k + j)) := by
  rw [unpackByte_eq]
  refine List.map_congr_left fun j hj => ?_
  rw [List.mem_range] at hj
  have hdiv : (8 * k + j) / 8 = k := by omega
  have hmod : (8 * k + j) % 8 = j := by omega
  rw [bitAt, hdiv, hmod]

lemma flatMap_unpackByte (X : List Byte) (m : Nat) :
    ((List.range m).flatMap fun k => unpackByte 8 (X.getD k 0)) =
      (List.range (8 * m)).map fun i => flagOf (bitAt X i) := by
  induction m with
  | zero => rfl
  | succ m ih =>
    rw [List.range_succ, List.flatMap_append, ih, List.flatMap_singleton, unpackByte_getD _ _ le_rfl,
      Nat.mul_succ, List.range_add, List.map_append, List.map_map]
    rfl

lemma convBtoI1_eq (X : List Byte) (nX : Nat) :
    convBtoI1 X nX = some ((List.range nX).map fun i => flagOf (bitAt X i)) := by
  have hsplit : nX = 8 * (nX / 8) + (nX - nX / 8 * 8) := by omega
  have hY : ((List.range (nX / 8)).flatMap fun k => unpackByte 8 (X.getD k 0)) ++
      unpackByte (nX - nX / 8 * 8) (X.getD (nX / 8) 0) =
        (List.range nX).map fun i => flagOf (bitAt X i) := by
    rw [flatMap_unpackByte, unpackByte_getD _ _ (by omega)]
    conv_rhs => rw [hsplit, List.range_add, List.map_append, List.map_map]
    rfl
  rw [convBtoI1, hY]
  exact if_neg (by simp)

/-! ### What the operators do to bits -/

/-- The operator on single bits. -/
def BitOp.onBit : BitOp → Bool → Bool → Bool
  | .or, a, b => a || b
  | .and, a, b => a && b
  | .andNot, a, b => a && !b

lemma getLsbD_onWord (op : BitOp) (a b : BitVec 64) {i : Nat} (hi : i < 64) :
    (op.onWord a b).getLsbD i = op.onBit (a.getLsbD i) (b.getLsbD i) := by
  cases op <;> simp [BitOp.onWord, BitOp.onBit, hi]

lemma onI1_flags (op : BitOp) {a b : Byte} (ha : a = 0 ∨ a = 1) (hb : b = 0 ∨ b = 1) :
    op.onI1 a b = flagOf (op.onBit (decide (a = 1)) (decide (b = 1))) := by
  rcases ha with rfl | rfl <;> rcases hb with rfl | rfl <;> cases op <;> decide

end Datacl
