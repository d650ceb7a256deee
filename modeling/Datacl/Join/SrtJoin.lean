import Datacl.Vec.Partition

/-!
# The sorted join

`core_srt_join` treats one block of the destination: it initialises the block, walks through source
and destination side by side and in the end clears the values of rows without a match. The cells of
the output file are `w` bits wide, 32 for `I4` and 64 for `I8`; `srt_join` runs the blocks on one
file. Adding the result to the metadata is not part of the model.
-/

namespace Datacl

/-- The operations of `mk_join_op`. -/
inductive JoinOp where
  | joinReg
  | joinOr
  | joinAnd
  | joinMin
  | joinMax
  | joinCnt
  | joinSum
  | joinMinidx
  | joinMaxidx
  | joinExists
  deriving DecidableEq

/-- There is a null column `nn_dst_val` for the operation. -/
def JoinOp.hasNn : JoinOp → Bool
  | .joinReg | .joinOr | .joinAnd | .joinMin | .joinMax => true
  | .joinCnt | .joinSum | .joinMinidx | .joinMaxidx | .joinExists => false

/-- The arguments that all blocks share. -/
structure JoinArgs (w : Nat) where
  op : JoinOp
  srcLnk : List Int
  srcVal : Nat → BitVec w
  dstLnk : List Int

/-- The output files and `is_any_null`. -/
structure JoinOut (w : Nat) where
  val : Nat → BitVec w
  nn : Nat → Bool
  isAnyNull : Bool

section

variable {w : Nat}

/-! ### Initial values -/

/-- `assign_const` on the rows `[lb, ub)`. -/
def assignConst {α : Type} (lb ub : Nat) (c : α) (X : Nat → α) (i : Nat) : α :=
  if lb ≤ i ∧ i < ub then c else X i

/-- `assign_const_I8` on the first `n` elements, in a file with cells of `w` bits. -/
def assignI8 (n : Nat) (c : BitVec w) (X : Nat → BitVec w) (i : Nat) : BitVec w :=
  if i * w < 64 * n then c else X i

/-- `assign_const_I1` of 0 on the first `n` bytes. -/
def clearI1 (n : Nat) (X : Nat → BitVec w) (i : Nat) : BitVec w :=
  let k := n - i * (w / 8)
  (X i >>> (8 * k)) <<< (8 * k)

/-- `set_init` on `dst_val`. Only the operations with a null column begin at `lb`. -/
def setInit (op : JoinOp) (lb ub : Nat) (X : Nat → BitVec w) : Nat → BitVec w :=
  match op with
  | .joinExists => clearI1 (ub - lb) X
  | .joinMinidx | .joinMaxidx => assignI8 (ub - lb) (-1) X
  | .joinSum | .joinCnt => assignI8 (ub - lb) 0 X
  | .joinReg | .joinOr => assignConst lb ub 0 X
  | .joinAnd => assignConst lb ub (BitVec.allOnes w) X
  | .joinMin => assignConst lb ub (BitVec.intMax w) X
  | .joinMax => assignConst lb ub (BitVec.intMin w) X

/-! ### Walking through the source -/

/-- The fancy jumping: `delta` is doubled as long as it does not go too far. It is at least the
number of rounds, so `src_nR` rounds are enough. -/
def gallop (srcLnk : List Int) (v : Int) (srcIdx : Nat) : Nat → Nat → Nat → Nat
  | 0, _, prevExpt => prevExpt
  | rounds + 1, delta, prevExpt =>
    let expt := srcIdx + delta
    if srcLnk.length ≤ expt then prevExpt
    else if v ≤ srcLnk.getD expt 0 then prevExpt
    else gallop srcLnk v srcIdx rounds (2 * delta) expt

/-- Advance the source until its link is not below `v`. Every round makes a step. -/
def advance (srcLnk : List Int) (v : Int) : Nat → Nat → Nat
  | 0, srcIdx => srcIdx
  | rounds + 1, srcIdx =>
    if srcLnk.length ≤ srcIdx then srcIdx
    else if v ≤ srcLnk.getD srcIdx 0 then srcIdx
    else advance srcLnk v rounds (gallop srcLnk v srcIdx srcLnk.length 1 (srcIdx + 1))

/-- The `switch` on `ijoin_op` for a source row that matches. -/
def combine (J : JoinArgs w) (srcIdx : Nat) (x : BitVec w) : BitVec w :=
  let v := J.srcVal srcIdx
  match J.op with
  | .joinMinidx => if x.toInt < 0 then BitVec.ofNat w srcIdx else x
  | .joinMaxidx => if x.toInt < srcIdx then BitVec.ofNat w srcIdx else x
  | .joinExists => 1
  | .joinCnt => x + 1
  | .joinSum => x + v
  | .joinMax => if x.toInt < v.toInt then v else x
  | .joinMin => if v.toInt < x.toInt then v else x
  | .joinOr => x ||| v
  | .joinAnd => x &&& v
  | .joinReg => v

/-- Consume the source rows with link `v`. At the end of the source `src_idx` stays there. -/
def consume (J : JoinArgs w) (v : Int) : Nat → Nat → BitVec w → Nat × BitVec w
  | 0, srcIdx, x => (srcIdx, x)
  | left + 1, srcIdx, x =>
    if J.srcLnk.getD srcIdx 0 = v then consume J v left (srcIdx + 1) (combine J srcIdx x)
    else (srcIdx - 1, x)

/-! ### One block -/

/-- The variables of the main loop. -/
structure JoinState (w : Nat) extends JoinOut w where
  srcIdx : Nat

def setNn (op : JoinOp) (nn : Nat → Bool) (i : Nat) (b : Bool) : Nat → Bool :=
  if op.hasNn then Function.update nn i b else nn

/-- The body of the main loop for row `i`; `none` leaves the loop. -/
def joinRow (J : JoinArgs w) (lb i : Nat) (s : JoinState w) : Option (JoinState w) :=
  let v := J.dstLnk.getD i 0
  if lb < i ∧ v = J.dstLnk.getD (i - 1) 0 then
    some { s with
      val := Function.update s.val i (s.val (i - 1))
      nn := setNn J.op s.nn i (s.nn (i - 1)) }
  else if J.srcLnk.length ≤ s.srcIdx then none
  else
    let p := advance J.srcLnk v J.srcLnk.length s.srcIdx
    if p < J.srcLnk.length ∧ J.srcLnk.getD p 0 = v then
      let (srcIdx, x) := consume J v (J.srcLnk.length - p) p (s.val i)
      some ⟨⟨Function.update s.val i x, setNn J.op s.nn i true, s.isAnyNull⟩, srcIdx⟩
    else
      -- the flag is set when the source has gone too far, and for a null column in any case
      some ⟨⟨s.val, setNn J.op s.nn i false,
        s.isAnyNull || decide (p < J.srcLnk.length) || J.op.hasNn⟩, p⟩

/-- The main loop over the given number of rows, from row `i` on. -/
def joinLoop (J : JoinArgs w) (lb : Nat) : Nat → Nat → JoinState w → JoinState w
  | 0, _, s => s
  | n + 1, i, s =>
    match joinRow J lb i s with
    | none => s
    | some s' => joinLoop J lb n (i + 1) s'

/-- Values of rows without a match become 0, if the block knows of such a row. -/
def clearNulls (op : JoinOp) (lb ub : Nat) (out : JoinOut w) : JoinOut w :=
  if op.hasNn ∧ out.isAnyNull then
    { out with val := fun i => if lb ≤ i ∧ i < ub ∧ out.nn i = false then 0 else out.val i }
  else out

/-- `core_srt_join` on the block `[lb, ub)`. -/
def coreSrtJoin (J : JoinArgs w) (lb ub : Nat) (val : Nat → BitVec w) (nn : Nat → Bool) :
    JoinOut w :=
  let nn := if J.op.hasNn then assignConst lb ub false nn else nn
  let s := joinLoop J lb (ub - lb) lb ⟨⟨setInit J.op lb ub val, nn, false⟩, 0⟩
  clearNulls J.op lb ub s.toJoinOut

/-- Block `tid` of `srt_join`. -/
def joinBlock (J : JoinArgs w) (nT : Nat) (out : JoinOut w) (tid : Nat) : JoinOut w :=
  let nR := J.dstLnk.length
  let (lb, ub) := blockBounds nR (nR / nT) nT tid
  let block := coreSrtJoin J lb ub out.val out.nn
  { block with isAnyNull := out.isAnyNull || block.isAnyNull }

/-- The blocks of `srt_join`, one after another. -/
def srtJoinBlocks (J : JoinArgs w) (nT : Nat) (val : Nat → BitVec w) (nn : Nat → Bool) : JoinOut w :=
  (List.range nT).foldl (joinBlock J nT) ⟨val, nn, false⟩

/-- The same values, null flags and `is_any_null` for `n` rows. -/
def JoinOut.Same (op : JoinOp) (n : Nat) (out out' : JoinOut w) : Prop :=
  (∀ i < n, out.val i = out'.val i) ∧ (op.hasNn = true → ∀ i < n, out.nn i = out'.nn i) ∧
    out.isAnyNull = out'.isAnyNull

end

end Datacl
