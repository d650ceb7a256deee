import Datacl.Meta.Check
import Datacl.Meta.Tables
import Datacl.Order.SetOps

/-!
# Operations that reorder, copy or combine columns

`sortf1f2`, `copy_fld_ranges`, `rng_sort`, `t1f1t2f2opt3f3` and `app_fld`. A cell of a data file
is the signed integer of its bytes. The sort that drags a second column along does not keep the
order of equal values, so it is a parameter.
-/

namespace Datacl

/-- The direction of a sort. -/
inductive SortDir where
  | asc | desc
  deriving DecidableEq, Repr

def SortDir.le : SortDir → Int → Int → Prop
  | .asc, a, b => a ≤ b
  | .desc, a, b => b ≤ a

instance (d : SortDir) : DecidableRel d.le :=
  match d with
  | .asc => fun a b => inferInstanceAs (Decidable (a ≤ b))
  | .desc => fun a b => inferInstanceAs (Decidable (b ≤ a))

def SortDir.srttype : SortDir → SortType
  | .asc => .ascending
  | .desc => .descending

/-- `qsort_asc_I4`, `qsort_dsc_I4` and their 64-bit versions. -/
def SortDir.qsort (d : SortDir) (cells : List Int) : List Int := cells.insertionSort d.le

/-- `qsort_asc_val_I4_idx_I4` and its variants: the pairs are sorted by their first components. -/
structure PairSort where
  sort : SortDir → List (Int × Int) → List (Int × Int)
  perm : ∀ d ps, (sort d ps).Perm ps
  sorted : ∀ d ps, (sort d ps).Pairwise fun p q => d.le p.1 q.1

/-! ### The recorded order -/

/-- `int_set_meta` for the sort type. -/
def intSetSrttype (env : Env) (tblId fldId : Nat) (srttype : SortType) : Cmd Store Unit := do
  Cmd.modify fun s => s.setFld fldId { s.fld fldId with srttype := srttype }
  let s ← Cmd.get
  Cmd.require (chkTblMeta s tblId = true)
  Cmd.require (chkFldMeta env s fldId (s.tbl tblId).nR = true)

/-- `get_data`. -/
def getData (env : Env) (s : Store) (r : FldRec) : Option DataFile :=
  qMmap env s r.ddirId r.fileno

/-- Write the data file of a field. -/
def Store.setData (r : FldRec) (f : DataFile) (s : Store) : Store :=
  s.setFile r.ddirId r.fileno (some f)

/-! ### Sorting -/

/-- The implemented values of `str_op_spec`. -/
def sortSpec : Name → Option SortDir
  | ['A', '_'] => some .asc
  | ['D', '_'] => some .desc
  | _ => none

/-- `sortf1f2`. -/
def sortf1f2 (env : Env) (q : PairSort) (tbl f1 f2 strOpSpec : Name) : Cmd Store Unit := do
  Cmd.require (tbl ≠ [])
  Cmd.require (f1 ≠ [])
  Cmd.require (f2 ≠ [])
  Cmd.require (f1 ≠ f2)
  let s ← Cmd.get
  let tblId ← Cmd.ofOption (isTbl s tbl)
  let nR := (s.tbl tblId).nR.toNat
  let f1Id ← Cmd.ofOption (isFld s tblId f1)
  Cmd.require ((s.fld f1Id).nnFldId < 0)
  Cmd.require ((s.fld f1Id).isExternal = false)
  let x1 ← Cmd.ofOption (getData env s (s.fld f1Id))
  let f2Id ← Cmd.ofOption (isFld s tblId f2)
  Cmd.require ((s.fld f2Id).nnFldId < 0)
  Cmd.require ((s.fld f2Id).isExternal = false)
  let x2 ← Cmd.ofOption (getData env s (s.fld f2Id))
  let dir ← Cmd.ofOption (sortSpec strOpSpec)
  Cmd.require ((s.fld f1Id).fldtype = .I4 ∨ (s.fld f1Id).fldtype = .I8)
  Cmd.require ((s.fld f2Id).fldtype = .I4 ∨ (s.fld f2Id).fldtype = .I8)
  -- rows past the end of a file are not there to be sorted
  Cmd.require (nR ≤ x1.cells.length ∧ nR ≤ x2.cells.length)
  let rows := q.sort dir ((x1.cells.zip x2.cells).take nR)
  Cmd.modify (Store.setData (s.fld f1Id)
    { x1 with cells := rows.map Prod.fst ++ x1.cells.drop nR })
  Cmd.modify (Store.setData (s.fld f2Id)
    { x2 with cells := rows.map Prod.snd ++ x2.cells.drop nR })
  intSetSrttype env tblId f1Id dir.srttype

/-- The rows from `r.1` up to but not including `r.2`. -/
def sliceRows (cells : List Int) (r : Int × Int) : List Int :=
  (cells.drop r.1.toNat).take (r.2 - r.1).toNat

/-- The columns of the lower and the upper bounds of ranges: 64-bit integers without null
values. -/
def getRanges (env : Env) (tblId : Nat) (lb ub : Name) : Cmd Store (List (Int × Int)) := do
  let s ← Cmd.get
  let lbId ← Cmd.ofOption (isFld s tblId lb)
  let lbX ← Cmd.ofOption (getData env s (s.fld lbId))
  Cmd.require ((s.fld lbId).fldtype = .I8)
  Cmd.require ((s.fld lbId).nnFldId < 0)
  let ubId ← Cmd.ofOption (isFld s tblId ub)
  let ubX ← Cmd.ofOption (getData env s (s.fld ubId))
  Cmd.require ((s.fld ubId).fldtype = .I8)
  Cmd.require ((s.fld ubId).nnFldId < 0)
  pure ((lbX.cells.zip ubX.cells).take (s.tbl tblId).nR.toNat)

/-- `rng_sort` accepts the range. -/
def rngSortOk (nR : Int) (r : Int × Int) : Bool :=
  (0 ≤ r.1 && r.1 < nR) && (0 < r.2 && r.2 ≤ nR) && r.1 < r.2

/-- One round of the loop of `rng_sort`. -/
def rngSortAt (dir : SortDir) (nR : Int) (cells : List Int) (r : Int × Int) : List Int :=
  if rngSortOk nR r = true ∧ 1 < r.2 then
    cells.take r.1.toNat ++ dir.qsort (sliceRows cells r) ++ cells.drop r.2.toNat
  else cells

/-- The values of the mode of `rng_sort`. -/
def rngSortMode : Name → Option SortDir
  | ['A'] => some .asc
  | ['D'] => some .desc
  | _ => none

/-- `rng_sort`. A range out of bounds is passed over, and makes it fail at the end. -/
def rngSort (env : Env) (t1 f1 mode t2 lb ub : Name) : Cmd Store Unit := do
  Cmd.require (t1 ≠ [])
  Cmd.require (f1 ≠ [])
  Cmd.require (t2 ≠ [])
  Cmd.require (lb ≠ [])
  Cmd.require (ub ≠ [])
  Cmd.require (t1 ≠ t2)
  Cmd.require (lb ≠ ub)
  let dir ← Cmd.ofOption (rngSortMode mode)
  let s ← Cmd.get
  let t1Id ← Cmd.ofOption (isTbl s t1)
  let nR1 := (s.tbl t1Id).nR
  let f1Id ← Cmd.ofOption (isFld s t1Id f1)
  Cmd.require ((s.fld f1Id).isExternal = false)
  let x1 ← Cmd.ofOption (getData env s (s.fld f1Id))
  Cmd.require ((s.fld f1Id).fldtype = .I4 ∨ (s.fld f1Id).fldtype = .I8)
  Cmd.require ((s.fld f1Id).nnFldId < 0)
  let t2Id ← Cmd.ofOption (isTbl s t2)
  let ranges ← getRanges env t2Id lb ub
  Cmd.modify (Store.setData (s.fld f1Id) { x1 with cells := ranges.foldl (rngSortAt dir nR1) x1.cells })
  Cmd.require (ranges.all (rngSortOk nR1) = true)

/-! ### Copying ranges -/

/-- The ranges of `copy_fld_ranges`: two row numbers, or two columns of a table. -/
inductive RangeArg where
  | rows (lb ub : Int)
  | tbl (rngTbl lb ub : Name)
  deriving DecidableEq, Repr

/-- `copy_fld_ranges` accepts the range. The last row of the table can not be copied. -/
def copyRangeOk (nR : Int) (r : Int × Int) : Bool := 0 ≤ r.1 && r.2 < nR && r.1 < r.2

/-- The ranges to copy. -/
def copyRanges (env : Env) : RangeArg → Cmd Store (List (Int × Int))
  | .rows lb ub => pure [(lb, ub)]
  | .tbl rngTbl lb ub => do
    Cmd.require (lb ≠ [])
    Cmd.require (ub ≠ [])
    Cmd.require (lb ≠ ub)
    let s ← Cmd.get
    let rngTblId ← Cmd.ofOption (isTbl s rngTbl)
    getRanges env rngTblId lb ub

/-- The table the ranges are copied to. -/
def copyTarget (env : Env) (t2 : Name) (nR2 : Int) : Option Nat → Cmd Store Nat
  | some t2Id => do
    let s ← Cmd.get
    Cmd.require ((s.tbl t2Id).nR = nR2)
    pure t2Id
  | none => addTbl env t2 nR2

/-- The nn field of the copy, unless it has no null value. -/
def copyNn (env : Env) (t2Id f2Id : Nat) (nR2 : Int) :
    Option (DataFile × Int × Int) → Cmd Store Unit
  | none => pure ()
  | some (x, ddirId, fileno) => do
    Cmd.when (x.cells.sum = nR2) (qDelete env ddirId fileno)
    Cmd.when (x.cells.sum ≠ nR2) do
      let _ ← addAuxFld env [] t2Id [] f2Id ddirId fileno .nn { zeroFldRec with fldtype := .I1 }

/-- The file for the nn field of the copy. -/
def copyNnFile (env : Env) (ranges : List (Int × Int)) :
    Option DataFile → Cmd Store (Option (DataFile × Int × Int))
  | none => pure none
  | some x => do
    let y : DataFile := { x with cells := ranges.flatMap (sliceRows x.cells) }
    let (ddirId, fileno) ← mkTempFile env y
    pure (some (y, ddirId, fileno))

/-- The loop that copies the ranges of a table counts them in an `int`. -/
def copyLoopOk (ranges : List (Int × Int)) : RangeArg → Bool
  | .rows _ _ => true
  | .tbl _ _ _ => ranges.length < 2 ^ 31

/-- `copy_fld_ranges`. -/
def copyFldRanges (env : Env) (t1 f1 : Name) (rng : RangeArg) (t2 : Name) : Cmd Store Unit := do
  Cmd.require (t1 ≠ [])
  Cmd.require (f1 ≠ [])
  Cmd.require (t2 ≠ [])
  Cmd.require (t1 ≠ t2)
  let s ← Cmd.get
  let t1Id ← Cmd.ofOption (isTbl s t1)
  let nR1 := (s.tbl t1Id).nR
  let t1f1Id ← Cmd.ofOption (isFld s t1Id f1)
  let t1f1 := s.fld t1f1Id
  let x ← Cmd.ofOption (getData env s t1f1)
  let nn := if 0 ≤ t1f1.nnFldId then getData env s (s.fld t1f1.nnFldId.toNat) else none
  Cmd.require (t1f1.fldtype ∈ [FldType.I1, .I2, .I4, .I8, .F4, .F8])
  let ranges ← copyRanges env rng
  Cmd.require (ranges.all (copyRangeOk nR1) = true)
  let nR2 := (ranges.map fun r => r.2 - r.1).sum
  Cmd.require (nR2 ≠ 0)
  let t2Id ← copyTarget env t2 nR2 (isTbl s t2)
  let (ddirId, fileno) ← mkTempFile env { x with cells := ranges.flatMap (sliceRows x.cells) }
  let nnFile ← copyNnFile env ranges nn
  Cmd.require (copyLoopOk ranges rng = true)
  let t2f1Id ← addFld env t2Id f1 ddirId fileno { zeroFldRec with fldtype := t1f1.fldtype }
  Cmd.modify fun s =>
    s.setFld t2f1Id { s.fld t2f1Id with srttype := (s.fld t1f1Id).srttype }
  copyMeta t2f1Id t1f1Id
  copyNn env t2Id t2f1Id nR2 nnFile

/-! ### Set operations -/

/-- The operations of `t1f1t2f2opt3f3`; `pvalcalc` comes with the mask of its options, if there is
one. -/
inductive SetOp where
  | intersection | aMinusB | union
  | pvalcalc (mask : Option Nat)
  deriving DecidableEq, Repr

/-- The number of rows room is made for. -/
def SetOp.allocated (nR1 nR2 : Int) : SetOp → Int
  | .intersection => min nR1 nR2
  | .aMinusB => nR1
  | .union => nR1 + nR2
  | .pvalcalc _ => nR1 + nR2

/-- The rows of the result for columns of `w` bits. -/
def SetOp.rows (w : Nat) (xs ys : List Int) : SetOp → Option (List Int)
  | .intersection => some (Datacl.intersection xs ys)
  | .aMinusB => some (Datacl.aMinusB xs ys)
  | .union => some (unionCols w 0 xs ys)
  | .pvalcalc mask => mask.map fun mask => unionCols w (BitVec.ofNat w mask) xs ys

/-- The number of bits of a cell of an integer type. -/
def fldBits : FldType → Nat
  | .I4 => 32
  | _ => 64

/-- The end of `t1f1t2f2opt3f3`, once the result is known not to be empty. -/
def addResult (env : Env) (op : SetOp) (t3 f3 : Name) (nR3 : Int) (ddirId fileno : Int)
    (fldtype : FldType) : Cmd Store Unit := do
  let t3Id ← addTbl env t3 nR3
  let f3Id ← addFld env t3Id f3 ddirId fileno { zeroFldRec with fldtype := fldtype }
  Cmd.when (op = .union ∨ op = .intersection ∨ op = .aMinusB)
    (intSetSrttype env t3Id f3Id .ascending)

/-- `t1f1t2f2opt3f3`. -/
def t1f1t2f2opt3f3 (env : Env) (t1 f1 t2 f2 : Name) (op : SetOp) (t3 f3 : Name) :
    Cmd Store Unit := do
  Cmd.require (t1 ≠ [])
  Cmd.require (f1 ≠ [])
  Cmd.require (t2 ≠ [])
  Cmd.require (f2 ≠ [])
  Cmd.require (f3 ≠ [])
  Cmd.require (t1 ≠ t3)
  Cmd.require (t3 ≠ [])
  Cmd.require (t2 ≠ t3)
  let s ← Cmd.get
  let t1Id ← Cmd.ofOption (isTbl s t1)
  let nR1 := (s.tbl t1Id).nR
  let f1Id ← Cmd.ofOption (isFld s t1Id f1)
  let x1 ← Cmd.ofOption (getData env s (s.fld f1Id))
  let t2Id ← Cmd.ofOption (isTbl s t2)
  let nR2 := (s.tbl t2Id).nR
  let f2Id ← Cmd.ofOption (isFld s t2Id f2)
  let x2 ← Cmd.ofOption (getData env s (s.fld f2Id))
  Cmd.require ((s.fld f1Id).srttype = .ascending)
  Cmd.require ((s.fld f2Id).srttype = .ascending)
  Cmd.require ((s.fld f1Id).nnFldId < 0)
  Cmd.require ((s.fld f2Id).nnFldId < 0)
  let fldtype := (s.fld f1Id).fldtype
  Cmd.require (fldtype = (s.fld f2Id).fldtype)
  Cmd.require (fldtype = .I4 ∨ fldtype = .I8)
  let width := fldBits fldtype / 8
  let nR3 := op.allocated nR1 nR2
  let (ddirId, fileno) ← mkTempFile env ⟨width, List.replicate nR3.toNat 0⟩
  let rows ← Cmd.ofOption
    (op.rows (fldBits fldtype) (x1.cells.take nR1.toNat) (x2.cells.take nR2.toNat))
  Cmd.modify (Store.setFile ddirId fileno (some ⟨width, rows⟩))
  Cmd.require (rows.length ≤ nR3)
  Cmd.when (rows = []) (qDelete env ddirId fileno)
  Cmd.when (rows ≠ []) (addResult env op t3 f3 rows.length ddirId fileno fldtype)

/-! ### Appending -/

/-- `app_fld` appends the null values; it fails if `f1` has some already, since it then enters
directory -1. -/
def appNn (env : Env) (t1Id f1Id : Nat) (nR1 nR2 : Nat) (nn1 nn2 : Int) : Cmd Store Unit := do
  Cmd.require (nn1 < 0)
  Cmd.when (0 ≤ nn2) do
    let s ← Cmd.get
    let y ← Cmd.ofOption (getData env s (s.fld nn2.toNat))
    let (ddirId, fileno) ← mkTempFile env
      ⟨1, (List.replicate nR1 1 ++ y.cells ++ List.replicate nR2 0).take (nR1 + nR2)⟩
    let nnId ← addAuxFld env [] t1Id [] f1Id ddirId fileno .nn { zeroFldRec with fldtype := .I1 }
    Cmd.modify fun s => s.setFld nnId { s.fld nnId with filesz := nR1 + nR2 }

/-- `app_fld`. The file of `f1` is opened for appending, which makes it if it is not there. -/
def appFld (env : Env) (t1Id f1Id t2Id f2Id : Nat) : Cmd Store Unit := do
  let s ← Cmd.get
  let nR1 := (s.tbl t1Id).nR.toNat
  let nR2 := (s.tbl t2Id).nR.toNat
  let f1 := s.fld f1Id
  let f2 := s.fld f2Id
  Cmd.require (env.canEnter f1.ddirId)
  let x2 ← Cmd.ofOption (getData env s f2)
  let x1 := (s.disk f1.ddirId f1.fileno).getD ⟨x2.width, []⟩
  Cmd.modify (Store.setData f1 { x1 with cells := x1.cells ++ x2.cells })
  appNn env t1Id f1Id nR1 nR2 f1.nnFldId f2.nnFldId
  Cmd.modify fun s => s.setFld f1Id { s.fld f1Id with
    srttype := .unknown
    sumval := 0
    minval := 0
    maxval := 0
    isSumNn := false
    isMinNn := false
    isMaxNn := false }
  let fldsz ← Cmd.ofOption (getFldSz f1.fldtype)
  Cmd.modify fun s => s.setFld f1Id { s.fld f1Id with filesz := (fldsz * (nR1 + nR2)).toNat }

/-- The call of `app_fld` by `app_tbl` for a field of `t1`, after the checks it makes first. -/
def appTblFld (env : Env) (t1 fld t2 : Name) : Cmd Store Unit := do
  Cmd.require (t1 ≠ [])
  Cmd.require (t2 ≠ [])
  Cmd.require (fld ≠ [])
  let s ← Cmd.get
  let t1Id ← Cmd.ofOption (isTbl s t1)
  let t2Id ← Cmd.ofOption (isTbl s t2)
  let f1Id ← Cmd.ofOption (isFld s t1Id fld)
  Cmd.require ((s.fld f1Id).auxtype = .undefAuxtype)
  Cmd.require ((s.fld f1Id).fldtype ≠ .SC ∧ (s.fld f1Id).fldtype ≠ .SV)
  Cmd.require ((s.fld f1Id).isExternal = false)
  let f2Id ← Cmd.ofOption (isFld s t2Id fld)
  Cmd.require ((s.fld f1Id).auxtype = (s.fld f2Id).auxtype)
  Cmd.require ((s.fld f1Id).fldtype = (s.fld f2Id).fldtype)
  appFld env t1Id f1Id t2Id f2Id

end Datacl
