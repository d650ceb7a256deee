import Datacl.Csv.ReadCsv
import Datacl.Dict.Dump
import Datacl.Meta.Store
import Datacl.Text.Values
import Mathlib.Data.List.TakeWhile

/-!
# `print_cell`

`print_cell` for fields of every type, with or without a dictionary. It copies the cell to
`g_dld_buf`, which is kept from cell to cell and from field to field, and writes the value and its
null flag to the files of the field. The hash functions and the two functions that read a floating
point number, whose results are given by their bits, are parameters.
-/

namespace Datacl

/-- The members of `FLD_PROPS_TYPE` that are only read. -/
structure CellProps where
  isAllDef : Bool
  isLkp : Bool
  isNullIfMissing : Bool
  isTrunc : Bool
  maxlen : Nat

/-- What `print_cell` is given with every cell of a field: its type and properties, an existing
dictionary with its number of keys, and whether `nn_fp` and `len_fp` are open. -/
structure CellFld where
  fldtype : FldType
  props : CellProps
  dictOld : Option (DictFiles × Nat)
  nnFp : Bool
  lenFp : Bool

structure CellEnv where
  H : Hashing
  stoF4 : List Char → Option Int
  stoF8 : List Char → Option Int

/-- What was written to the files of a field, `is_any_null`, and its new dictionary. -/
structure FldOut where
  fp : List UInt8
  lenFp : List UInt8
  nn : List Bool
  isAnyNull : Bool
  dict : Dict

/-- The string at the head of the buffer, which ends at the first NUL. -/
def cString (buf : List UInt8) : CString :=
  ⟨buf.takeWhile (· ≠ 0), fun b hb => by simpa using List.mem_takeWhile_imp hb⟩

def cChars (buf : List UInt8) : List Char := (cString buf).val.map fun b => Char.ofNat b.toNat

/-- The bytes of an integer of `w` bytes. -/
def putInt (w : Nat) (v : Int) : List UInt8 := Bytes.put w (v % 256 ^ w).toNat

/-- The buffer, of `g_dld_buflen + 1` bytes, for a cell of the given length: it grows once. -/
def growBuf (buf : List UInt8) (rawLen : Nat) : List UInt8 :=
  if buf.length ≤ rawLen + 1 then List.replicate (2 * buf.length) 0 else buf

/-- The text and its NUL over what the buffer held before. -/
def fillBuf (buf txt : List UInt8) : List UInt8 := txt ++ 0 :: buf.drop (txt.length + 1)

def zeroStringToNullc (buf : List UInt8) : List UInt8 :=
  (buf.takeWhile (· ≠ 0)).map (fun _ => 0) ++ buf.dropWhile (· ≠ 0)

/-- The number of bytes that the copy of a cell puts into `g_dld_buf`. An error in the middle
leaves the loop, so that the NUL is missing. -/
def bufBytes : List UInt8 → Nat
  | [] => 1
  | [c] => if c = bslash then 0 else 2
  | c :: d :: rest =>
    if c = bslash then
      if d ≠ bslash ∧ d ≠ dquote then 0 else 1 + bufBytes rest
    else 1 + bufBytes (d :: rest)

/-- The checks of the length. The test for characters of numbers rejects none, since none is below
`'0'` and above `'9'`. -/
def cellLenOk (fld : CellFld) (txt : List UInt8) : Bool :=
  if fld.props.isLkp then txt.length < maxLenStr
  else
    match fld.fldtype with
    | .I1 | .I2 | .I4 | .I8 | .F4 | .F8 =>
      txt.length ≤ 32 ∧ txt.all fun c => !((c < 48 && 57 < c) && c != 46 && c != 45)
    | .SC | .SV => txt.length < maxLenStr
    | _ => false

/-- The value of a lookup field: its null flag, what goes to `fp`, and the new dictionary. -/
def lookupCell (env : CellEnv) (fld : CellFld) (buf : List UInt8) (cNn : Bool) (dict : Dict) :
    Option (Bool × List UInt8 × Dict) :=
  match fld.dictOld with
  | some (files, nKeys) =>
    if cNn then
      match getFromDict env.H.hash files nKeys (cString buf) with
      | none => none
      | some valI4 =>
        if valI4 < 0 then
          if fld.props.isNullIfMissing then some (false, putInt 4 0, dict) else none
        else some (true, putInt 4 valI4, dict)
    else some (false, putInt 4 0, dict)
  | none =>
    if cNn then
      match addToDict env.H dict (cString buf) with
      | (_, none) => none
      | (dict, some uvalI8) => some (true, putInt 8 uvalI8.toInt, dict)
    else some (false, putInt 8 0, dict)

/-- A value of an integer type of `w` bytes. -/
def printInt (w : Nat) (buf : List UInt8) (cNn : Bool) : Option (List UInt8) :=
  (if cNn then stoI8 (cChars buf) else some 0).bind fun valI8 =>
    if 2 ^ (8 * w - 1) ≤ valI8 ∨ valI8 < -2 ^ (8 * w - 1) then none else some (putInt w valI8)

def printFloat (w : Nat) (read : List Char → Option Int) (buf : List UInt8) (cNn : Bool) :
    Option (List UInt8) :=
  (if cNn then read (cChars buf) else some 0).map (putInt w)

/-- A string of fixed length. If it is to be truncated, `maxlen` bytes of the buffer are taken. -/
def printSC (props : CellProps) (buf : List UInt8) (len : Nat) : Option (List UInt8) :=
  let cellLen := if props.isTrunc then props.maxlen else len
  if props.maxlen < cellLen ∨ buf.length < cellLen then none
  else some (buf.take cellLen ++ List.replicate (props.maxlen - cellLen + 1) 0)

/-- A string of variable length: what goes to `fp` and to `len_fp`. -/
def printSV (props : CellProps) (txt : List UInt8) : Option (List UInt8 × List UInt8) :=
  if 0 < props.maxlen ∧ props.maxlen < txt.length then none
  else if 32767 < txt.length then none
  else some (txt ++ [0], putInt 2 txt.length)

/-- The value of a field without a dictionary: its null flag and what goes to `fp` and `len_fp`. -/
def plainCell (env : CellEnv) (fld : CellFld) (buf txt : List UInt8) (cNn : Bool) :
    Option (Bool × List UInt8 × List UInt8) :=
  match fld.fldtype with
  | .I1 => (printInt 1 buf cNn).map fun x => (cNn, x, [])
  | .I2 => (printInt 2 buf cNn).map fun x => (cNn, x, [])
  | .I4 => (printInt 4 buf cNn).map fun x => (cNn, x, [])
  | .I8 => (printInt 8 buf cNn).map fun x => (cNn, x, [])
  | .F4 => (printFloat 4 env.stoF4 buf cNn).map fun x => (cNn, x, [])
  | .F8 => (printFloat 8 env.stoF8 buf cNn).map fun x => (cNn, x, [])
  -- the flag is decided anew by the first byte of the buffer
  | .SC => (printSC fld.props buf txt.length).map fun x => (decide (buf.headD 0 ≠ 0), x, [])
  | .SV => (printSV fld.props txt).map fun x => (cNn, x)
  | _ => none

/-- The value of a cell: its null flag, what goes to `fp` and `len_fp`, and the new dictionary. -/
def cellValue (env : CellEnv) (fld : CellFld) (buf txt : List UInt8) (cNn : Bool) (dict : Dict) :
    Option (Bool × List UInt8 × List UInt8 × Dict) :=
  if fld.props.isLkp then
    (lookupCell env fld buf cNn dict).map fun r => (r.1, r.2.1, [], r.2.2)
  else (plainCell env fld buf txt cNn).map fun r => (r.1, r.2.1, r.2.2, dict)

/-- `print_cell` on the buffer and what has been written for the field; `none` is an error, or an
access outside of the buffer or to a file that is not open. -/
def printCell (env : CellEnv) (fld : CellFld) (raw buf : List UInt8) (out : FldOut) :
    Option (List UInt8 × FldOut) :=
  if fld.props.isAllDef && fld.nnFp then none
  else if decide (fld.fldtype = .SV) ≠ fld.lenFp then none
  else
    let buf := growBuf buf raw.length
    match dldText raw with
    | none => none
    | some txt =>
      if buf.length < txt.length + 1 then none
      else if cellLenOk fld txt = false then none
      else if txt.length = 0 ∧ fld.props.isAllDef then none
      else
        let buf := fillBuf buf txt
        match cellValue env fld buf txt (txt.length ≠ 0) out.dict with
        | none => none
        | some (cNn, fp, lenFp, dict) =>
          if (!fld.props.isAllDef) && !fld.nnFp then none
          else some (zeroStringToNullc buf, {
            fp := out.fp ++ fp
            lenFp := out.lenFp ++ lenFp
            nn := if fld.props.isAllDef then out.nn else out.nn ++ [cNn]
            isAnyNull := out.isAnyNull || decide (txt.length = 0)
            dict := dict })

/-- What a successful call does. -/
lemma printCell_cases {env : CellEnv} {fld : CellFld} {raw buf buf' : List UInt8} {out out' : FldOut}
    (h : printCell env fld raw buf out = some (buf', out')) :
    ∃ txt r, dldText raw = some txt ∧ txt.length + 1 ≤ (growBuf buf raw.length).length ∧
      cellLenOk fld txt = true ∧ (txt = [] → fld.props.isAllDef = false) ∧
      cellValue env fld (fillBuf (growBuf buf raw.length) txt) txt (txt.length ≠ 0) out.dict =
        some r ∧
      buf' = zeroStringToNullc (fillBuf (growBuf buf raw.length) txt) ∧
      out' = {
        fp := out.fp ++ r.2.1
        lenFp := out.lenFp ++ r.2.2.1
        nn := if fld.props.isAllDef then out.nn else out.nn ++ [r.1]
        isAnyNull := out.isAnyNull || decide (txt.length = 0)
        dict := r.2.2.2 } := by
  unfold printCell at h
  split at h
  · cases h
  split at h
  · cases h
  dsimp only at h
  split at h
  · cases h
  next txt htxt =>
    split at h
    · cases h
    next hroom =>
      split at h
      · cases h
      next hlen =>
        split at h
        · cases h
        next hdef =>
          split at h
          · cases h
          next cNn fp lenFp dict hval =>
            split at h
            · cases h
            next hnn =>
              obtain ⟨rfl, rfl⟩ := Prod.mk.inj (Option.some.inj h)
              refine ⟨txt, _, htxt, not_lt.mp hroom, by simpa using hlen, ?_, hval, rfl, rfl⟩
              intro hempty
              simpa [hempty] using hdef

/-! ### Cells of many fields -/

/-- `g_dld_buf` and the fields. -/
structure Loading where
  buf : List UInt8
  outs : Nat → FldOut

/-- As `read_csv` begins, with empty hash tables for the new dictionaries. -/
def Loading.start (szHts : Nat → Nat) : Loading :=
  ⟨List.replicate 8192 0, fun i => ⟨[], [], [], false, setupHtDict (szHts i)⟩⟩

/-- One call of `print_cell`, for a field given by its index and the bytes of the cell. -/
def loadCell (env : CellEnv) (flds : Nat → CellFld) (s : Loading) (c : Nat × List UInt8) :
    Option Loading :=
  (printCell env (flds c.1) c.2 s.buf (s.outs c.1)).map fun r =>
    ⟨r.1, Function.update s.outs c.1 r.2⟩

/-- Calls of `print_cell` that all succeed. -/
def printCells (env : CellEnv) (flds : Nat → CellFld) (s : Loading) (cells : List (Nat × List UInt8)) :
    Option Loading :=
  cells.foldlM (loadCell env flds) s

/-- The null column of a field that `dld` keeps. -/
def dldNn (props : CellProps) (out : FldOut) : Option (List Bool) :=
  if props.isAllDef then none
  else if out.isAnyNull = false then none
  else some out.nn

end Datacl
