import Datacl.Meta.SetMeta
import Datacl.Order.Columns
import Datacl.Vec.Partition

/-!
# Packing columns into the bits of one column

`pack` and `unpack`. Both keep what they know of each field in arrays of `MAX_PACK_FLDS` entries;
the model records every index that is used into one of them, also by the loop that cleans up at
the end. What the functions get from `is_tbl`, `is_fld`, `get_data`, `mk_temp_file` and `add_fld`
is an argument.
-/

namespace Datacl

/-- `MAX_PACK_FLDS` -/
def maxPackFlds : Nat := 8

/-- `MAX_NUM_FLDS` -/
def maxNumFlds : Nat := 8192

/-! ### Arguments -/

/-- `explode`: an empty string has no pieces. -/
def explode (delim : Char) (inX : Name) : List Name := if inX = [] then [] else inX.splitOn delim

/-- `stoI4` -/
def stoI4 (x : Name) : Option Int := (stoI8 x).filter fun y => -2 ^ 31 ≤ y ∧ y ≤ 2 ^ 31 - 1

/-- `two_raised_to`, which doubles a `long long`. -/
def twoRaisedTo : Nat → BitVec 64
  | 0 => 1
  | n + 1 => twoRaisedTo n * 2

/-- A field as `is_fld` and `get_data` find it; the cells are missing if there is no access. -/
structure FldData where
  fldtype : FldType
  hasNn : Bool
  data : Option (List Int)
  deriving DecidableEq

/-- What the called functions give: the rows of the table, its fields, and whether a file and a
field can be made for output `i`. -/
structure PackCalls where
  isTbl : Option Nat
  isFld : Name → Option FldData
  newFile : Nat → Bool
  addFld : Nat → Bool

/-- The arguments of `pack`. -/
structure PackArgs where
  tbl : Name
  strFlds : Name
  strShifts : Name
  strDstFldtype : Name
  fout : Name

/-- The arguments of `unpack`. -/
structure UnpackArgs where
  tbl : Name
  fin : Name
  strShifts : Name
  strNbits : Name
  strDstFldtypes : Name
  strFlds : Name

/-- The lengths of the lists that have been read, and the indices used so far. -/
structure PackFrame where
  nFlds : Nat
  nY : Nat
  nZ : Nat
  nW : Nat
  used : List Nat

def PackFrame.start : PackFrame := ⟨0, 0, 0, 0, []⟩

def touch (i : Nat) : Cmd PackFrame Unit := Cmd.modify fun s => { s with used := s.used ++ [i] }

def touchAll (n : Nat) : Cmd PackFrame Unit := Cmd.forEach touch (List.range n)

/-- The indices used at the end. The last loop goes over all fields and frees an entry of each list
besides; it gets no further than to the first entry that is missing. -/
def PackFrame.cleanUp (s : PackFrame) (shortest : Nat) : List Nat :=
  s.used ++ List.range (min s.nFlds (shortest + 1))

def PackInBounds (used : List Nat) : Prop := ∀ i ∈ used, i < maxPackFlds

instance (used : List Nat) : Decidable (PackInBounds used) :=
  inferInstanceAs (Decidable (∀ i ∈ used, i < maxPackFlds))

/-- A loop that sets entry `i` of an array from piece `i` of a list, from entry `i` on. -/
def readEach {α : Type} (read : Name → Option α) : Nat → List Name → Cmd PackFrame (List α)
  | _, [] => pure []
  | i, y :: ys => do
    touch i
    let v ← Cmd.ofOption (read y)
    let vs ← readEach read (i + 1) ys
    pure (v :: vs)

def readShift (y : Name) : Option Nat :=
  (stoI4 y).bind fun shift => if shift < 0 then none else some shift.toNat

/-! ### Packing -/

/-- One row. A shift by the width of the type or more, which has no meaning in C, gives 0. -/
def packRow (w : Nat) : List (Int × Nat) → BitVec w → Option (BitVec w)
  | [], outval => some outval
  | (x, shift) :: row, outval =>
    let thisval := BitVec.ofInt w x
    if thisval.toInt < 0 then none else packRow w row (outval ||| thisval <<< shift)

/-- The column that is written. A negative value makes the call fail. -/
def packCells (w nR : Nat) (xs : List (List Int)) (shifts : List Nat) : Option (List Int) :=
  (List.range nR).mapM fun i =>
    (packRow w ((xs.map fun x => x.getD i 0).zip shifts) 0).map BitVec.toInt

/-- Get access to the inputs. -/
def openFlds (calls : PackCalls) (fout : Name) (dstFldtype : FldType) :
    Nat → List Name → Cmd PackFrame (List (List Int))
  | _, [] => pure []
  | i, fld :: flds => do
    Cmd.require (fld ≠ fout)
    touch i
    let fldRec ← Cmd.ofOption (calls.isTbl.bind fun _ => calls.isFld fld)
    Cmd.require (fldRec.hasNn = false)
    Cmd.require (fldRec.fldtype ∈ [FldType.I1, .I2, .I4, .I8])
    let x ← Cmd.ofOption fldRec.data
    Cmd.require ¬ (dstFldtype = .I4 ∧ fldRec.fldtype = .I8)
    let xs ← openFlds calls fout dstFldtype (i + 1) flds
    pure (x :: xs)

/-- The first part of `pack`: the type of the output, the names of the fields and their shifts. -/
def packLists (a : PackArgs) : Cmd PackFrame (FldType × List Name × List Nat) := do
  Cmd.require (a.tbl ≠ [])
  Cmd.require (a.strFlds ≠ [])
  Cmd.require (a.strShifts ≠ [])
  Cmd.require (a.strDstFldtype ≠ [])
  Cmd.require (a.fout ≠ [])
  let dstFldtype ← Cmd.ofOption (unstrFldtype a.strDstFldtype)
  Cmd.require (dstFldtype = .I4 ∨ dstFldtype = .I8)
  touchAll maxPackFlds
  let flds := explode ':' a.strFlds
  Cmd.modify fun s => { s with nFlds := flds.length }
  Cmd.require ¬ (flds.length < 2 ∨ maxNumFlds < flds.length)
  let Y := explode ':' a.strShifts
  Cmd.modify fun s => { s with nY := Y.length }
  Cmd.require (Y.length = flds.length)
  let shifts ← readEach readShift 0 Y
  pure (dstFldtype, flds, shifts)

/-- The rest of `pack` up to the label `BYE`. -/
def packColumns (calls : PackCalls) (fout : Name) (dstFldtype : FldType) (flds : List Name)
    (shifts : List Nat) : Cmd PackFrame (List Int) := do
  let nR := calls.isTbl.getD 0
  let xs ← openFlds calls fout dstFldtype 0 flds
  Cmd.require (calls.newFile 0 = true)
  Cmd.when (0 < nR) (touchAll flds.length)
  let cells ← Cmd.ofOption (packCells (fldBits dstFldtype) nR xs shifts)
  Cmd.require (calls.addFld 0 = true)
  pure cells

def packBody (calls : PackCalls) (a : PackArgs) : Cmd PackFrame (List Int) := do
  let (dstFldtype, flds, shifts) ← packLists a
  packColumns calls a.fout dstFldtype flds shifts

/-- `pack` with the indices it uses. -/
def packRun (calls : PackCalls) (a : PackArgs) : Option (List Int) × List Nat :=
  let (cells, s) := packBody calls a .start
  (cells, s.cleanUp s.nY)

/-- `pack`: the cells of the new field; `none` is an error or an index that is out of bounds. -/
def pack (calls : PackCalls) (a : PackArgs) : Option (List Int) :=
  if PackInBounds (packRun calls a).2 then (packRun calls a).1 else none

/-! ### Unpacking -/

/-- The value of one field in a row. -/
def unpackVal (w : Nat) (inVal : BitVec w) (shift nbits : Nat) : Int :=
  (((inVal >>> shift).setWidth 64 &&& (twoRaisedTo nbits - 1)).setWidth w).toInt

/-- A value is in the range of a type. -/
def fitsFldtype (v : Int) : FldType → Bool
  | .I1 => -2 ^ 7 ≤ v ∧ v < 2 ^ 7
  | .I2 => -2 ^ 15 ≤ v ∧ v < 2 ^ 15
  | .I4 => -2 ^ 31 ≤ v ∧ v < 2 ^ 31
  | _ => true

/-- The values of one row, for fields given by their shift, number of bits and type. -/
def unpackRow (w : Nat) (flds : List (Nat × Nat × FldType)) (v : Int) : Option (List Int) :=
  flds.mapM fun (shift, nbits, fldtype) =>
    let val := unpackVal w (BitVec.ofInt w v) shift nbits
    if fitsFldtype val fldtype then some val else none

def readNbits (fin : FldType) (y : Name) : Option Nat :=
  (stoI4 y).bind fun nbits =>
    if nbits < 1 then none else if (fldBits fin : Int) ≤ nbits then none else some nbits.toNat

/-- The largest number of bits for a value of the type. -/
def maxNbits : FldType → Nat
  | .I1 => 7
  | .I2 => 15
  | .I4 => 31
  | _ => 63

/-- Read the types of the outputs and make a file for each. -/
def openOutputs (calls : PackCalls) (fin : FldType) :
    Nat → List (Name × Nat) → Cmd PackFrame (List FldType)
  | _, [] => pure []
  | i, (z, nbits) :: rest => do
    touch i
    let fldtype ← Cmd.ofOption (unstrFldtype z)
    Cmd.require (fldtype ∈ [FldType.I1, .I2, .I4, .I8])
    Cmd.require ¬ (fin = .I4 ∧ fldtype = .I8)
    Cmd.require (nbits ≤ maxNbits fldtype)
    Cmd.require (calls.newFile i = true)
    let fldtypes ← openOutputs calls fin (i + 1) rest
    pure (fldtype :: fldtypes)

/-- The rows, block by block. -/
def unpackRows (w nR : Nat) (flds : List (Nat × Nat × FldType)) (cells : List Int) :
    Option (List (List Int)) :=
  (vecMap 8192 (unpackRow w flds) ((List.range nR).map fun i => cells.getD i 0)).bind
    fun rows => rows.mapM id

/-- The names, shifts, numbers of bits and types of the outputs. -/
structure UnpackLists where
  flds : List Name
  shifts : List Nat
  nbits : List Nat
  types : List Name

/-- The field to unpack: its type and its cells. -/
def unpackInput (calls : PackCalls) (a : UnpackArgs) : Cmd PackFrame (Nat × FldType × List Int) := do
  Cmd.require (a.tbl ≠ [])
  Cmd.require (a.fin ≠ [])
  Cmd.require (a.strFlds ≠ [])
  Cmd.require (a.strShifts ≠ [])
  Cmd.require (a.strDstFldtypes ≠ [])
  let nR ← Cmd.ofOption calls.isTbl
  let finRec ← Cmd.ofOption (calls.isFld a.fin)
  Cmd.require (finRec.fldtype = .I8 ∨ finRec.fldtype = .I4)
  let cells ← Cmd.ofOption finRec.data
  pure (nR, finRec.fldtype, cells)

def unpackLists (a : UnpackArgs) (fin : FldType) : Cmd PackFrame UnpackLists := do
  touchAll maxPackFlds
  let flds := explode ':' a.strFlds
  Cmd.modify fun s => { s with nFlds := flds.length }
  Cmd.require ¬ (flds.length < 2 ∨ maxNumFlds < flds.length)
  let Y := explode ':' a.strShifts
  Cmd.modify fun s => { s with nY := Y.length }
  Cmd.require (Y.length = flds.length)
  let shifts ← readEach readShift 0 Y
  let W := explode ':' a.strNbits
  Cmd.modify fun s => { s with nW := W.length }
  Cmd.require (W.length = flds.length)
  let nbits ← readEach (readNbits fin) 0 W
  let Z := explode ':' a.strDstFldtypes
  Cmd.modify fun s => { s with nZ := Z.length }
  Cmd.require (Z.length = flds.length)
  pure ⟨flds, shifts, nbits, Z⟩

/-- The loop that adds the new fields. -/
def addOutput (calls : PackCalls) (i : Nat) : Cmd PackFrame Unit := do
  touch i
  Cmd.require (calls.addFld i = true)

/-- The rest of `unpack` up to the label `BYE`; the result is the columns in the order of the
fields. -/
def unpackColumns (calls : PackCalls) (nR : Nat) (fin : FldType) (cells : List Int)
    (l : UnpackLists) : Cmd PackFrame (List (List Int)) := do
  let n := l.flds.length
  let dstFldtypes ← openOutputs calls fin 0 (l.types.zip l.nbits)
  touchAll n
  let rows ← Cmd.ofOption
    (unpackRows (fldBits fin) nR (l.shifts.zip (l.nbits.zip dstFldtypes)) cells)
  Cmd.when (0 < nR) (touchAll n)
  Cmd.forEach (addOutput calls) (List.range n)
  pure ((List.range n).map fun j => rows.map fun row => row.getD j 0)

def unpackBody (calls : PackCalls) (a : UnpackArgs) : Cmd PackFrame (List (List Int)) := do
  let (nR, fin, cells) ← unpackInput calls a
  let l ← unpackLists a fin
  unpackColumns calls nR fin cells l

/-- `unpack` with the indices it uses. -/
def unpackRun (calls : PackCalls) (a : UnpackArgs) : Option (List (List Int)) × List Nat :=
  let (columns, s) := unpackBody calls a .start
  (columns, s.cleanUp (min s.nY (min s.nZ s.nW)))

/-- `unpack`: the cells of the new fields; `none` is an error or an index that is out of bounds. -/
def unpack (calls : PackCalls) (a : UnpackArgs) : Option (List (List Int)) :=
  if PackInBounds (unpackRun calls a).2 then (unpackRun calls a).1 else none

end Datacl
