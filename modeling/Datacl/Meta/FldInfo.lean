import Mathlib.Data.List.Sort
import Mathlib.Order.RelClasses
import Datacl.Lib.Command

/-!
# The auxiliary-field index

`g_fld_info` maps a field and a kind (dictionary, lengths, offsets) to another field. It is an
array of eight-byte records that every mutator sorts as signed 64-bit integers, so that the
used records come first and a search can stop at the first unused one.
-/

namespace Datacl

/-- `FLD_INFO_MODE_TYPE`. -/
inductive FldInfoMode where
  | undefFldInfo | fkFldTxtLkp | fkFldLen | fkFldOff
  deriving DecidableEq, Repr

/-- The value of the enumerator. -/
def FldInfoMode.toNat : FldInfoMode → Nat
  | undefFldInfo => 0
  | fkFldTxtLkp => 1
  | fkFldLen => 2
  | fkFldOff => 3

/-- Storing an `int` in a `short`. -/
def toShort (x : Int) : Int := x.bmod 65536

/-- `FLD_INFO_TYPE`; the union `xxx` holds one `short` whatever its name. -/
structure FldInfo where
  mode : FldInfoMode
  unused1 : Int
  fldId : Int
  xxx : Int
  unused2 : Int
  deriving DecidableEq, Repr

/-- `zero_fld_info_rec`. -/
def zeroFldInfoRec : FldInfo := ⟨.undefFldInfo, 0, 0, -1, 0⟩

/-- The eight bytes of a record read as a little-endian signed 64-bit integer. -/
def FldInfo.toI8 (r : FldInfo) : Int :=
  r.mode.toNat + 2 ^ 8 * (r.unused1 % 2 ^ 8) + 2 ^ 16 * (r.fldId % 2 ^ 16) +
    2 ^ 32 * (r.xxx % 2 ^ 16) + 2 ^ 48 * r.unused2

/-- The order in which the index is sorted. -/
def FldInfo.Le : FldInfo → FldInfo → Prop := Order.Preimage FldInfo.toI8 (· ≤ ·)

instance : DecidableRel FldInfo.Le := fun a b => inferInstanceAs (Decidable (a.toI8 ≤ b.toI8))

instance : Std.Total FldInfo.Le := inferInstanceAs (Std.Total (Order.Preimage _ _))

instance : IsTrans FldInfo FldInfo.Le := inferInstanceAs (IsTrans _ (Order.Preimage _ _))

/-- `qsort_asc_I8` on the records of the index. -/
def sortFldInfo (info : List FldInfo) : List FldInfo := info.insertionSort FldInfo.Le

/-- The record written to the slot that `add_to_fld_info` takes, if the mode and the auxiliary
field are valid. -/
def fillFldInfo (nFld : Nat) (r : FldInfo) (mode : FldInfoMode) (auxId : Int) : Option FldInfo :=
  if mode = .undefFldInfo ∨ auxId < 0 ∨ nFld ≤ auxId then none
  else some { r with xxx := toShort auxId }

/-- `add_to_fld_info`: take the first unused record. The mode and the field are written to it
before the auxiliary field is checked. -/
def addToFldInfo (nFld : Nat) (fldId : Int) (mode : FldInfoMode) (auxId : Int) :
    Cmd (List FldInfo) Unit := do
  Cmd.require (0 ≤ fldId ∧ fldId < nFld)
  let info ← Cmd.get
  match info.findIdx? (fun r => r.mode = .undefFldInfo) with
  | none => Cmd.fail
  | some i =>
    let r := { info.getD i zeroFldInfoRec with mode := mode, fldId := toShort fldId }
    Cmd.modify fun info => info.set i r
    match fillFldInfo nFld r mode auxId with
    | none => Cmd.fail
    | some r => Cmd.modify fun info => sortFldInfo (info.set i r)

/-- The search loop of `get_fld_info`; `outId` is `*ptr_out_id`. -/
def searchFldInfo (mode : FldInfoMode) (fldId : Int) : List FldInfo → Int → Int
  | [], outId => outId
  | r :: info, outId =>
    if 0 ≤ outId then outId
    else if r.mode = .undefFldInfo then outId
    else if r.mode ≠ mode then searchFldInfo mode fldId info outId
    else if r.fldId = fldId then searchFldInfo mode fldId info r.xxx
    else searchFldInfo mode fldId info outId

/-- `get_fld_info`. -/
def getFldInfo (mode : FldInfoMode) (fldId : Int) (info : List FldInfo) : Int :=
  searchFldInfo mode fldId info (-1)

/-- Reset the records that satisfy `p` and sort, as both delete functions do. -/
def zeroFldInfo (p : FldInfo → Bool) (info : List FldInfo) : List FldInfo :=
  sortFldInfo (info.map fun r => if p r then zeroFldInfoRec else r)

/-- `del_from_fld_info`. -/
def delFromFldInfo (nFld : Nat) (fldId : Int) : Cmd (List FldInfo) Unit := do
  Cmd.require (0 ≤ fldId ∧ fldId < nFld)
  Cmd.modify (zeroFldInfo fun r => r.fldId = fldId)

/-- `del_from_fld_info_1`. -/
def delFromFldInfo1 (nFld : Nat) (fldId : Int) (mode : FldInfoMode) : Cmd (List FldInfo) Unit := do
  Cmd.require (0 ≤ fldId ∧ fldId < nFld)
  Cmd.require (mode ≠ .undefFldInfo)
  Cmd.modify (zeroFldInfo fun r => r.fldId = fldId ∧ r.mode = mode)

end Datacl
