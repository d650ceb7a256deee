import Datacl.Csv.ReadCsv
import Datacl.Vec.Partition

/-!
# The columns of a string field

`print_cell` writes the text and the lengths of an `SV` field, `dld` computes the offsets from the
lengths. The temporary files that `dld` makes for its columns are not part of the model.
-/

namespace Datacl

/-! ### Writing text and lengths -/

/-- A cell of the input and the text `print_cell` makes of it. -/
structure SvCell where
  raw : List UInt8
  text : List UInt8
  unescaped : dldText raw = some text
  short : text.length < maxLenStr

/-- The properties of the field do not rule the cell out. -/
def SvCell.Allowed (props : FldProps) (c : SvCell) : Prop :=
  (props.isAllDef = true → c.text.length ≠ 0) ∧ (0 < props.maxlen → c.text.length ≤ props.maxlen)

/-- `g_dld_buflen` once `print_cell` has seen a cell of `len` bytes. -/
def grownBuflen (buflen len : Nat) : Nat := if buflen ≤ len then 2 * (buflen + 1) - 1 else buflen

/-- Every text fits in the buffer as it is when its cell is printed. -/
def BufferHolds : Nat → List SvCell → Prop
  | _, [] => True
  | buflen, c :: cells =>
    c.text.length ≤ grownBuflen buflen c.raw.length ∧
      BufferHolds (grownBuflen buflen c.raw.length) cells

instance decidableBufferHolds : (buflen : Nat) → (cells : List SvCell) →
    Decidable (BufferHolds buflen cells)
  | _, [] => inferInstanceAs (Decidable True)
  | buflen, c :: cells =>
    have := decidableBufferHolds (grownBuflen buflen c.raw.length) cells
    inferInstanceAs (Decidable (_ ∧ _))

/-- `print_cell` for all rows of field `fld`. A text that does not fit in `g_dld_buf` is written
beyond its end, and nothing is known of what follows. -/
def loadCells (props : Nat → FldProps) (fld : Nat) : List SvCell → LoadState → Option LoadState
  | [], st => some st
  | c :: cells, st =>
    if grownBuflen st.dldBuflen c.raw.length < c.text.length then none
    else
      match printCellSV props 0 fld c.raw st with
      | none => none
      | some st' => loadCells props fld cells st'

/-! ### Computing offsets -/

/-- `add_scalar_I2` on one element. -/
def addScalarI2 (sval x : Int) : Int := CInt.wrap 16 (x + sval)

/-- `MAX_SHIFT` -/
def maxShift : Int := 16

/-- `f1opf2_shift` -/
def f1opf2Shift (X : List Int) (nS newval : Int) : Option (List Int) :=
  if nS = 0 then none
  else if nS ≤ -maxShift ∨ maxShift ≤ nS then none
  else if nS ≤ -X.length ∨ X.length ≤ nS then none
  else if 0 < nS then some (List.replicate nS.toNat newval ++ X.take (X.length - nS.toNat))
  else some (X.drop (-nS).toNat ++ List.replicate (-nS).toNat newval)

/-- The loop of `cum_I2_to_I8`. -/
def cumLoop (prevval : Int) : List Int → List Int
  | [] => []
  | inval :: rest => CInt.wrap 64 (inval + prevval) :: cumLoop (CInt.wrap 64 (inval + prevval)) rest

/-- `cum_I2_to_I8` -/
def cumI2toI8 : List Int → List Int
  | [] => []
  | first :: rest => CInt.wrap 64 first :: cumLoop (CInt.wrap 64 first) rest

/-- The offsets that `dld` computes from a column of lengths. -/
def dldOffsets (lens : List Int) : Option (List Int) := do
  let tmp ← vecMap 8192 (addScalarI2 1) lens
  let xxx ← f1opf2Shift tmp 1 0
  some (cumI2toI8 xxx)

/-- The columns of a string field. -/
structure SvColumns where
  text : List UInt8
  len : List Int
  off : List Int
  deriving DecidableEq

/-- The part of `dld` that fills the columns of field `fld`. -/
def loadSv (props : Nat → FldProps) (fld : Nat) (cells : List SvCell) : Option SvColumns := do
  let st ← loadCells props fld cells LoadState.start
  let lens := (st.files fld).lens.map fun n : Nat => CInt.wrap 16 n
  let off ← dldOffsets lens
  some ⟨(st.files fld).text, lens, off⟩

/-- Row `i` can be read back: `len[i]` bytes from `off[i]` on are the text, and a NUL follows. -/
def SvColumns.Decodes (cols : SvColumns) (cells : List SvCell) : Prop :=
  ∀ (i : Nat) c, cells[i]? = some c → ∃ len off : Nat, cols.len[i]? = some (len : Int) ∧
    cols.off[i]? = some (off : Int) ∧ (cols.text.drop off).take len = c.text ∧
      cols.text[off + len]? = some 0

end Datacl
