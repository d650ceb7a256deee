import Mathlib.Tactic

/-!
# The CSV loader: `read_csv` and `print_cell`

The mapped file is a list of bytes. `print_cell` writes to the files of its field and updates
the properties of the field; for the reader it is a function on an arbitrary state that may
fail. Its text path for fields of type `SV` without a dictionary is given below.
-/

namespace Datacl

/-- `'\\'`. -/
def bslash : UInt8 := 92

/-- `'"'`. -/
def dquote : UInt8 := 34

/-- The arguments of `read_csv` that steer the loop. `print_cell` receives `g_num_rows`, the index
of the field and the bytes of the cell. -/
structure CsvSpec (σ : Type) where
  fldDelim : UInt8
  fldSep : UInt8
  recDelim : UInt8
  ignoreHdr : Bool
  nFlds : Nat
  isLoad : Nat → Bool
  printCell : Nat → Nat → List UInt8 → σ → Option σ

/-- A call of `print_cell`: the field and the bytes `[lb, ub)` of the cell. -/
structure CellCall where
  fldIdx : Nat
  quoted : Bool
  lb : Nat
  ub : Nat
  deriving DecidableEq, Repr

/-- The local variables of `read_csv`, the calls of `print_cell` made so far and their effect. -/
structure ReadState (σ : Type) where
  inFld : Bool
  isFldDelim : Bool
  inEscapeMode : Bool
  isFldDelimEscaped : Bool
  lb : Nat
  fldIdx : Nat
  numCells : Nat
  numRows : Nat
  calls : List CellCall
  out : σ
  deriving DecidableEq

variable {σ : Type}

def ReadState.start (out : σ) : ReadState σ :=
  ⟨false, false, false, false, 0, 0, 0, 0, [], out⟩

/-- `X[i]`. A mapped file is followed by zero bytes. -/
def byteAt (X : List UInt8) (i : Nat) : UInt8 := X.getD i 0

/-- The bytes `[lb, ub)`. -/
def slice (X : List UInt8) (lb ub : Nat) : List UInt8 := (X.drop lb).take (ub - lb)

namespace CsvSpec

/-- Backslash and double quote are special unless the separator is a tab. -/
def escapes (spec : CsvSpec σ) : Bool := spec.fldSep != 9

/-- The byte ends an unquoted cell of the field. -/
def terminates (spec : CsvSpec σ) (fldIdx : Nat) (c : UInt8) : Bool :=
  (decide (fldIdx + 1 < spec.nFlds) && c == spec.fldSep) ||
    (decide (fldIdx + 1 = spec.nFlds) && c == spec.recDelim)

/-- `fld_idx++`, back to 0 after the last field. -/
def nextFld (spec : CsvSpec σ) (fldIdx : Nat) : Nat :=
  if fldIdx + 1 = spec.nFlds then 0 else fldIdx + 1

/-- The handling of backslash and double quote at the head of the loop body. -/
def noteEscape (spec : CsvSpec σ) (c : UInt8) (s : ReadState σ) : ReadState σ :=
  let s := if spec.escapes && c == bslash then { s with inEscapeMode := !s.inEscapeMode } else s
  if spec.escapes && c == dquote && s.inEscapeMode then
    { s with isFldDelimEscaped := true, inEscapeMode := false }
  else s

/-- `print_cell` is called unless the field is not loaded or the row is taken for the header. -/
def emitCell (spec : CsvSpec σ) (X : List UInt8) (isHdr quoted : Bool) (ub : Nat)
    (s : ReadState σ) : Option (ReadState σ) :=
  if spec.isLoad s.fldIdx then
    if spec.ignoreHdr && isHdr then some s
    else
      (spec.printCell s.numRows s.fldIdx (slice X s.lb ub) s.out).map fun out =>
        { s with out := out, calls := s.calls ++ [⟨s.fldIdx, quoted, s.lb, ub⟩] }
  else some s

/-- The bookkeeping after an unquoted cell that ended at the byte `c`. -/
def endPlain (spec : CsvSpec σ) (c : UInt8) (s : ReadState σ) : ReadState σ :=
  { s with
    inFld := false
    numCells := s.numCells + 1
    numRows := if s.fldIdx + 1 = spec.nFlds ∧ c = spec.recDelim then s.numRows + 1 else s.numRows
    fldIdx := spec.nextFld s.fldIdx }

/-- The bookkeeping after a quoted cell. -/
def endQuoted (spec : CsvSpec σ) (s : ReadState σ) : ReadState σ :=
  { s with
    inFld := false
    isFldDelim := false
    fldIdx := spec.nextFld s.fldIdx
    numCells := s.numCells + 1 }

/-- The first byte of a cell. The flag of the result says whether the next byte is consumed. -/
def startCell (spec : CsvSpec σ) (X : List UInt8) (i : Nat) (c : UInt8) (s : ReadState σ) :
    Option (ReadState σ × Bool) :=
  if c = spec.fldDelim then some ({ s with inFld := true, isFldDelim := true, lb := i + 1 }, false)
  else
    let s := { s with inFld := true, lb := i }
    if spec.terminates s.fldIdx c then
      (spec.emitCell X (s.numRows == 0) false i s).map fun s => (spec.endPlain c s, false)
    else some (s, false)

/-- A byte of a cell that started with `fld_delim`. -/
def insideQuoted (spec : CsvSpec σ) (X : List UInt8) (i : Nat) (c : UInt8) (s : ReadState σ) :
    Option (ReadState σ × Bool) :=
  if c = spec.fldDelim ∧ s.isFldDelimEscaped = false then
    if X.length < i + 1 then none
    else if s.fldIdx + 1 < spec.nFlds ∧ byteAt X (i + 1) ≠ spec.fldSep then none
    else if s.fldIdx + 1 = spec.nFlds ∧ byteAt X (i + 1) ≠ spec.recDelim then none
    else
      let s := { s with
        numRows := if s.fldIdx + 1 = spec.nFlds then s.numRows + 1 else s.numRows }
      (spec.emitCell X (s.numRows == 1) true i s).map fun s => (spec.endQuoted s, true)
  else some (s, false)

/-- A further byte of a cell that did not start with `fld_delim`. -/
def insidePlain (spec : CsvSpec σ) (X : List UInt8) (i : Nat) (c : UInt8) (s : ReadState σ) :
    Option (ReadState σ × Bool) :=
  if i = X.length ∨ spec.terminates s.fldIdx c then
    let ub := if i = X.length then i + 1 else i
    (spec.emitCell X (s.numRows == 0) false ub s).map fun s => (spec.endPlain c s, false)
  else some (s, false)

/-- The body of the loop; `none` is a jump to the error exit. -/
def readByte (spec : CsvSpec σ) (X : List UInt8) (i : Nat) (s : ReadState σ) :
    Option (ReadState σ × Bool) :=
  let c := byteAt X i
  if spec.escapes && s.inEscapeMode && c != bslash && c != dquote then none
  else
    let s := spec.noteEscape c s
    let next :=
      if s.inFld = false then spec.startCell X i c s
      else if s.isFldDelim then spec.insideQuoted X i c s
      else spec.insidePlain X i c s
    next.map fun r => ({ r.1 with isFldDelimEscaped := false }, r.2)

/-- The loop over the bytes of the file. -/
def readLoop (spec : CsvSpec σ) (X : List UInt8) (i : Nat) (s : ReadState σ) :
    Option (ReadState σ) :=
  if i < X.length then
    match spec.readByte X i s with
    | none => none
    | some (s', skip) => readLoop spec X (if skip then i + 2 else i + 1) s'
  else some s
  termination_by X.length - i
  decreasing_by split <;> omega

end CsvSpec

/-- `read_csv` up to the label `BYE`: the final state and `*ptr_num_rows`; `none` if an error
branch is taken. -/
def readCsv (spec : CsvSpec σ) (X : List UInt8) (out : σ) : Option (ReadState σ × Int) :=
  if spec.nFlds = 0 then none
  else
    match spec.readLoop X 0 (ReadState.start out) with
    | none => none
    | some s =>
      if s.numCells ≠ spec.nFlds * s.numRows then none
      else some (s, if spec.ignoreHdr then (s.numRows : Int) - 1 else s.numRows)

/-! ### `print_cell` for fields of type `SV` -/

/-- The text `print_cell` builds in `g_dld_buf` from the bytes of a cell. -/
def dldText : List UInt8 → Option (List UInt8)
  | [] => some []
  | [c] => if c = bslash then none else some [c]
  | c :: d :: rest =>
    if c = bslash then
      if d ≠ bslash ∧ d ≠ dquote then none else (dldText rest).map (d :: ·)
    else (dldText (d :: rest)).map (c :: ·)

def maxLenStr : Nat := 32765

/-- The fields of `FLD_PROPS_TYPE` that are read for an `SV` field. -/
structure FldProps where
  isAllDef : Bool
  maxlen : Nat

/-- The files `fp`, `len_fp` and `nn_fp` of an `SV` field and its `is_any_null`. -/
structure SVFiles where
  text : List UInt8
  lens : List Nat
  nn : List Bool
  isAnyNull : Bool
  deriving DecidableEq

/-- `g_dld_buflen` and the files of every field. -/
structure LoadState where
  dldBuflen : Nat
  files : Nat → SVFiles

def LoadState.start : LoadState := ⟨8191, fun _ => ⟨[], [], [], false⟩⟩

/-- `print_cell` with `fldtype = SV` and `is_lkp = false`. -/
def printCellSV (props : Nat → FldProps) (_nR fld : Nat) (raw : List UInt8) (st : LoadState) :
    Option LoadState :=
  let buflen := if st.dldBuflen ≤ raw.length then 2 * (st.dldBuflen + 1) - 1 else st.dldBuflen
  match dldText raw with
  | none => none
  | some txt =>
    if maxLenStr ≤ txt.length then none
    else if txt.length = 0 ∧ (props fld).isAllDef then none
    else if 0 < (props fld).maxlen ∧ (props fld).maxlen < txt.length then none
    else if 32767 < txt.length then none
    else
      let f := st.files fld
      let nn := decide (txt.length ≠ 0)
      some ⟨buflen, Function.update st.files fld
        ⟨f.text ++ txt ++ [0], f.lens ++ [txt.length],
          if (props fld).isAllDef then f.nn else f.nn ++ [nn], f.isAnyNull || !nn⟩⟩

/-- The arguments `dld` passes for a comma separated file of `SV` fields that are all loaded. -/
def svSpec (nFlds : Nat) (props : Nat → FldProps) : CsvSpec LoadState :=
  ⟨dquote, 44, 10, false, nFlds, fun _ => true, printCellSV props⟩

/-! ### The writer -/

/-- `pr_fld_SV` puts a backslash before each backslash and double quote of a string. -/
def escapeText (cell : List UInt8) : List UInt8 :=
  cell.flatMap fun c => if c = bslash ∨ c = dquote then [bslash, c] else [c]

/-- What `pr_fld_SV` prints for a string. -/
def quoteCell (cell : List UInt8) : List UInt8 := dquote :: (escapeText cell ++ [dquote])

/-- Cells separated by a comma, the last one followed by a newline. -/
def writeRow : List (List UInt8) → List UInt8
  | [] => []
  | [cell] => quoteCell cell ++ [10]
  | cell :: cells => quoteCell cell ++ 44 :: writeRow cells

def writeCsv (rows : List (List (List UInt8))) : List UInt8 := rows.flatMap writeRow

end Datacl
