import Datacl.Compound.CountVals
import Datacl.Meta.SetMeta
import Datacl.Order.Columns
import Datacl.Sorting.Subsample
import Datacl.Vec.Reduce
import Datacl.Vec.ZeroAfterN

/-!
# Operations on a column in place

`fop` sorts, permutes, saturates or cuts off a column, and `f_to_s` asks for a statistic of a column
or for its order and records the answer. Floating-point numbers, the statistics of bit fields and
the queries of `f_to_s` that record nothing are parameters. The cells of a bit field are its words.
-/

namespace Datacl

/-! ### Options in text -/

/-- `extract_S`: the text between `startStr` and `stopStr`, if they are there. -/
def extractS (x startStr stopStr : List Char) (lenOutput : Nat) : Option (Option (List Char)) :=
  match Delimited.after startStr x with
  | none => some none
  | some z =>
    if Delimited.after stopStr z = none then some none
    else if lenOutput - 1 ≤ (Delimited.before stopStr z).length then none
    else some (some (Delimited.before stopStr z))

/-- `extract_I8`. -/
def extractI8 (x startStr stopStr : List Char) : Option (Option Int) :=
  match Delimited.after startStr x with
  | none => some none
  | some z =>
    if Delimited.after stopStr z = none then some none
    else if 32 ≤ (Delimited.before stopStr z).length then none
    else if Delimited.before stopStr z = [] then some none
    else (stoI8 (Delimited.before stopStr z)).map some

/-- `chk_aux_info`. -/
def chkBrackets (auxInfo : List Char) : Bool :=
  auxInfo = [] || (auxInfo.count '[' = auxInfo.count ']' && auxInfo.count '[' ≠ 0)

/-- What `fop` is asked to do. -/
inductive FopSpec where
  | sort (dir : SortDir) (distribution : Name)
  | permute
  | zeroAfterN (oneCnt : Int)
  | saturate (maxval : Int)
  deriving DecidableEq, Repr

/-- `op`, `srt_ordr` and `distribution`. The status of `extract_S` is not looked at, and an operation
in brackets needs an order whether it sorts or not. -/
def fopArgs (spec : Name) : Option (Name × Name × Name) :=
  match (extractS spec "op=[".toList "]".toList 31).join with
  | none => some ([], [], [])
  | some op =>
    match (extractS spec "order=[".toList "]".toList 31).join with
    | none => none
    | some srtOrdr =>
      if srtOrdr ≠ "asc".toList ∧ srtOrdr ≠ "dsc".toList then none
      else
        match (extractS spec "distribution=[".toList "]".toList 31).join with
        | none => some (op, srtOrdr, [])
        | some distribution =>
          if distribution = "uniform_random".toList then some (op, srtOrdr, distribution) else none

/-- `str_op_spec` of `fop`. -/
def fopSpec (spec : Name) : Option FopSpec := do
  let (op, srtOrdr, distribution) ← fopArgs spec
  if spec = "sortA".toList ∨ (op = "sort".toList ∧ srtOrdr = "asc".toList) then
    some (.sort .asc distribution)
  else if spec = "sortD".toList ∨ (op = "sort".toList ∧ srtOrdr = "dsc".toList) then
    some (.sort .desc distribution)
  else if spec = "permute".toList ∨ op = "permute".toList then some .permute
  else if op = "zero_after_n".toList then
    if chkBrackets spec = false then none
    else (extractI8 spec "limit=[".toList "]".toList).join.map .zeroAfterN
  else if op = "saturate".toList then
    if chkBrackets spec = false then none
    else (extractI8 spec "maxval=[".toList "]".toList).join.map .saturate
  else none

/-! ### The kernels -/

/-- The types whose columns are signed integers. -/
def FldType.intType : FldType → Option IntType
  | .I1 => some .I1
  | .I2 => some .I2
  | .I4 => some .I4
  | .I8 => some .I8
  | _ => none

def Stat.redOp : Stat → RedOp
  | .sum => .sum
  | .min => .min
  | .max => .max

/-- What the commands are run with: the number of cores, the draws of `permute`, how floating-point
numbers are sorted, read and printed, and the answers that are not modelled. -/
structure Kernel where
  numCores : Int
  fl : ℚ → ℚ
  draw : Nat → ℚ
  sortF4 : SortDir → List Int → List Int
  sortF4_perm : ∀ dir cells, (sortF4 dir cells).Perm cells
  stoF8 : List Char → Option Int
  printF8 : Int → String
  vecOther : FldType → DataFile → Option DataFile → Nat → Stat → Option String
  query : FldRec → DataFile → Option DataFile → Nat → Name → Option String

/-- The cells in order, for the types that are implemented. -/
def sortCells (k : Kernel) (dir : SortDir) (cells : List Int) : FldType → Option (List Int)
  | .I4 | .I8 => some (dir.qsort cells)
  | .F4 => some (k.sortF4 dir cells)
  | _ => none

/-- `saturate_I1` and its variants. -/
def saturateCells (maxval : Int) (cells : List Int) : List Int :=
  cells.map fun x => if maxval < x then maxval else x

/-- `zero_after_n` on the words of a bit field. -/
def zeroAfterCells (nR oneCnt : Nat) (cells : List Int) : Option (List Int) :=
  (zeroAfterN (cells.map (BitVec.ofInt 64)) nR oneCnt).map fun r => r.1.map BitVec.toInt

/-- `vec_f_to_s`. -/
def vecFToSFld (k : Kernel) (t : FldType) (x : DataFile) (nnX : Option DataFile) (nR : Nat)
    (stat : Stat) : Option String :=
  match t.intType with
  | none => k.vecOther t x nnX nR stat
  | some t =>
    if nR ≤ x.cells.length ∧ ∀ y ∈ nnX, nR ≤ y.cells.length then
      vecFToS t (x.cells.take nR) (nnX.map fun y => y.cells.take nR) stat.redOp k.numCores
    else none

/-! ### `fop` -/

/-- `decide_on_parallelism`, for no distribution and for `uniform_random`. -/
def decideOnParallelism (distribution : Name) (t : FldType) (nR : Nat) : Bool :=
  distribution ≠ [] && (t = .I4 || t = .I8) && 16 * 1048576 ≤ nR

/-- Replace the rows of a field. -/
def writeRows (fldId nR : Nat) (x : DataFile) (rows : List Int) : Cmd Store Unit :=
  Cmd.modify fun s => s.setData (s.fld fldId) { x with cells := rows ++ x.cells.drop nR }

/-- The sorts. With a distribution `maxI8` is not set, and the parallel sort is left when its new file
has been made. -/
def fopSort (k : Kernel) (env : Env) (tblId fldId nR : Nat) (x : DataFile) (dir : SortDir)
    (distribution : Name) : Cmd Store Unit := do
  let s ← Cmd.get
  let t := (s.fld fldId).fldtype
  if dir = .asc ∧ decideOnParallelism distribution t nR = true then do
    let _ ← mkTempFile env ⟨fldBits t / 8, List.replicate nR 0⟩
    Cmd.fail
  else do
    Cmd.require (nR ≤ x.cells.length)
    let rows ← Cmd.ofOption (sortCells k dir (x.cells.take nR) t)
    writeRows fldId nR x rows
    intSetSrttype env tblId fldId dir.srttype

/-- `permute`, whose status nobody looks at. -/
def fopPermute (k : Kernel) (env : Env) (tblId fldId nR : Nat) (x : DataFile) : Cmd Store Unit := do
  let s ← Cmd.get
  let t := (s.fld fldId).fldtype
  Cmd.require (t = .I4 ∨ t = .I8)
  Cmd.require (nR ≤ x.cells.length)
  match permute k.fl k.draw (x.cells.take nR) with
  | .error .outside => Cmd.fail
  | .error .status => pure ()
  | .ok rows => writeRows fldId nR x rows
  intSetSrttype env tblId fldId .unsorted

def fopZeroAfterN (fldId : Nat) (nR : Int) (x : DataFile) (oneCnt : Int) : Cmd Store Unit := do
  let s ← Cmd.get
  Cmd.require ((s.fld fldId).fldtype = .B)
  Cmd.require (1 ≤ oneCnt ∧ oneCnt < nR)
  let words ← Cmd.ofOption (zeroAfterCells nR.toNat oneCnt.toNat x.cells)
  writeRows fldId x.cells.length x words

/-- A bound that does not fit into the type is refused. -/
def fopSaturate (fldId nR : Nat) (x : DataFile) (maxval : Int) : Cmd Store Unit := do
  let s ← Cmd.get
  let t ← Cmd.ofOption (s.fld fldId).fldtype.intType
  Cmd.require (t.InRange maxval)
  Cmd.require (nR ≤ x.cells.length)
  writeRows fldId nR x (saturateCells maxval (x.cells.take nR))

/-- The operation, once the column is there. -/
def FopSpec.exec (k : Kernel) (env : Env) (tblId fldId : Nat) (nR : Int) (x : DataFile) :
    FopSpec → Cmd Store Unit
  | .sort dir distribution => fopSort k env tblId fldId nR.toNat x dir distribution
  | .permute => fopPermute k env tblId fldId nR.toNat x
  | .zeroAfterN oneCnt => fopZeroAfterN fldId nR x oneCnt
  | .saturate maxval => fopSaturate fldId nR.toNat x maxval

/-- `fop`. -/
def fop (k : Kernel) (env : Env) (tbl fld strOpSpec : Name) : Cmd Store Unit := do
  Cmd.require (tbl ≠ [])
  Cmd.require (fld ≠ [])
  Cmd.require (strOpSpec ≠ [])
  let s ← Cmd.get
  let tblId ← Cmd.ofOption (isTbl s tbl)
  let fldId ← Cmd.ofOption (isFld s tblId fld)
  Cmd.require ((s.fld fldId).isExternal = false)
  Cmd.require ((s.fld fldId).nnFldId < 0)
  let x ← Cmd.ofOption (getData env s (s.fld fldId))
  let spec ← Cmd.ofOption (fopSpec strOpSpec)
  spec.exec k env tblId fldId (s.tbl tblId).nR x

/-! ### `f_to_s` -/

/-- `mk_str_srttype`. -/
def mkStrSrttype : SortType → String
  | .unknown => "unknown"
  | .unsorted => "unsorted"
  | .ascending => "ascending"
  | .descending => "descending"

/-- The statistic, if it is recorded. -/
def FldRec.getStat (r : FldRec) : Stat → Option Int
  | .sum => if r.isSumNn then some r.sumval else none
  | .min => if r.isMinNn then some r.minval else none
  | .max => if r.isMaxNn then some r.maxval else none

/-- A recorded statistic as text. -/
def printStat (k : Kernel) (r : FldRec) (v : Int) : Option String :=
  match r.fldtype with
  | .B | .I1 | .I2 | .I4 | .I8 => some (rsltBuf (r.numNn, v))
  | .F4 | .F8 => some (k.printF8 v ++ ":" ++ toString r.numNn)
  | _ => none

/-- A statistic: the recorded one or a new one, which is then recorded. -/
def fToSStat (k : Kernel) (env : Env) (tblId fldId nR : Nat) (x : DataFile) (nnX : Option DataFile)
    (stat : Stat) : Cmd Store String := do
  let s ← Cmd.get
  let r := s.fld fldId
  match r.getStat stat with
  | some v => Cmd.ofOption (printStat k r v)
  | none => do
    let buf ← Cmd.ofOption (vecFToSFld k r.fldtype x nnX nR stat)
    intSetMeta env k.stoF8 tblId fldId (.stat stat) buf.toList true
    pure buf

/-- The order of a column, which is recorded unless it is known. -/
def fToSOrder (fldId nR : Nat) (x : DataFile) : Cmd Store String := do
  let s ← Cmd.get
  let r := s.fld fldId
  if 0 ≤ r.nnFldId then
    Cmd.modify fun s => s.setFld fldId { s.fld fldId with srttype := .unsorted }
  else
    Cmd.when (r.srttype = .unknown) do
      Cmd.require (r.fldtype.intType ≠ none)
      Cmd.require (nR ≤ x.cells.length)
      Cmd.modify fun s =>
        s.setFld fldId { s.fld fldId with srttype := isSortedAlldef (x.cells.take nR) }
  let s ← Cmd.get
  pure (mkStrSrttype (s.fld fldId).srttype)

/-- The statistic that is asked for. -/
def statSpec (spec : Name) : Option Stat :=
  if spec = "min".toList then some .min
  else if spec = "max".toList then some .max
  else if spec = "sum".toList then some .sum
  else none

/-- The null column of a field, if it has one. -/
def getNnData (env : Env) (s : Store) (r : FldRec) : Option (Option DataFile) :=
  if 0 ≤ r.nnFldId then (getData env s (s.fld r.nnFldId.toNat)).map some else some none

/-- `f_to_s`. -/
def fToSCmd (k : Kernel) (env : Env) (tbl fld strOpSpec : Name) : Cmd Store String := do
  Cmd.require (tbl ≠ [])
  Cmd.require (fld ≠ [])
  Cmd.require (strOpSpec ≠ [])
  let s ← Cmd.get
  let tblId ← Cmd.ofOption (isTbl s tbl)
  let nR := (s.tbl tblId).nR.toNat
  let fldId ← Cmd.ofOption (isFld s tblId fld)
  let x ← Cmd.ofOption (getData env s (s.fld fldId))
  let nnX ← Cmd.ofOption (getNnData env s (s.fld fldId))
  let op ← Cmd.ofOption (extractS strOpSpec "op=[".toList "]".toList 32)
  if strOpSpec = "is_sorted".toList then fToSOrder fldId nR x
  else if strOpSpec = "approx_uq".toList ∨ op = some "get_idx".toList ∨ op = some "get_val".toList then
    Cmd.ofOption (k.query (s.fld fldId) x nnX nR strOpSpec)
  else do
    let stat ← Cmd.ofOption (statSpec strOpSpec)
    fToSStat k env tblId fldId nR x nnX stat

end Datacl
